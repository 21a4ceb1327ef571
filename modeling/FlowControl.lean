import FlowControl.Config.Basic
import FlowControl.Config.Builder
import FlowControl.Config.Core
import FlowControl.Config.Host
import FlowControl.Config.Options
import FlowControl.Config.Quiet
import FlowControl.Document.Data
import FlowControl.Document.Toml.Moment
import FlowControl.Document.Toml.Number
import FlowControl.Document.Toml.Reader
import FlowControl.Document.Toml.Table
import FlowControl.Document.Toml.Text
import FlowControl.Document.Toml.Value
import FlowControl.Error
import FlowControl.Gate.Basic
import FlowControl.Gate.Host
import FlowControl.Gate.Session
import FlowControl.Layer.Audit
import FlowControl.Layer.Custom
import FlowControl.Layer.Socket
import FlowControl.Message
import FlowControl.Notice
import FlowControl.Option.Key
import FlowControl.Option.Map
import FlowControl.Option.Value
import FlowControl.Profile.Basic
import FlowControl.Profile.Data
import FlowControl.Profile.Source
import FlowControl.Registry
import FlowControl.Session.Basic
import FlowControl.Session.Run
import FlowControl.Session.Step
import FlowControl.Sizing.Handle
import FlowControl.Sizing.Pass
import FlowControl.Sizing.Script
import FlowControl.Sizing.Session
import FlowControl.Sizing.Strategy
import FlowControl.Sizing.Table
import FlowControl.Text.Description
import FlowControl.Text.Quoted
import FlowControl.Text.Unprintable
import FlowControl.WaterMark
import FlowControl.Proofs.Gate.Activity
import FlowControl.Proofs.Gate.Settled
import FlowControl.Proofs.Gate.Told
import FlowControl.Proofs.Gate.Passive
import FlowControl.Proofs.Gate.Hysteresis
import FlowControl.Proofs.Gate.Marks
import FlowControl.Proofs.Gate.Budgets
import FlowControl.Proofs.Gate.Pressure
import FlowControl.Proofs.Sizing.Bounds
import FlowControl.Proofs.Sizing.Growth
import FlowControl.Proofs.Sizing.Capacity
import FlowControl.Proofs.Sizing.Pass
import FlowControl.Proofs.Sizing.Shrinking
import FlowControl.Proofs.Sizing.GivenResults
import FlowControl.Proofs.Sizing.Session
import FlowControl.Proofs.Sizing.Resizing
import FlowControl.Proofs.Sizing.PassLength
import FlowControl.Proofs.Sizing.Client
import FlowControl.Proofs.Sizing.SteadyLoad
import FlowControl.Proofs.Option.Map
import FlowControl.Proofs.Option.Table
import FlowControl.Proofs.Option.Identity
import FlowControl.Proofs.Option.Writes
import FlowControl.Proofs.Registry.Declared
import FlowControl.Proofs.Registry.Session
import FlowControl.Proofs.Registry.Story
import FlowControl.Proofs.Config.Layers
import FlowControl.Proofs.Config.SetOption
import FlowControl.Proofs.Config.Batch
import FlowControl.Proofs.Config.Discreet
import FlowControl.Proofs.Config.Snapshot
import FlowControl.Proofs.Config.Calls
import FlowControl.Proofs.Config.Build
import FlowControl.Proofs.Config.Sound
import FlowControl.Proofs.Config.Accepted
import FlowControl.Proofs.Config.Restore
import FlowControl.Proofs.Config.Apart
import FlowControl.Proofs.Config.Entries
import FlowControl.Proofs.Config.Mistyped
import FlowControl.Proofs.Config.Inert
import FlowControl.Proofs.Config.Preserves
import FlowControl.Proofs.Config.Keeps
import FlowControl.Proofs.Config.Busy
import FlowControl.Proofs.Config.AutoRead
import FlowControl.Proofs.Config.Accounting
import FlowControl.Proofs.Config.Steering
import FlowControl.Proofs.Config.ReadPass
import FlowControl.Proofs.Profile.Settings
import FlowControl.Proofs.Profile.Effect
import FlowControl.Proofs.Profile.Apply
import FlowControl.Proofs.Document.Data
import FlowControl.Proofs.Profile.Written
import FlowControl.Proofs.Config.Building
import FlowControl.Proofs.Config.Regular
import FlowControl.Proofs.Config.Watched
import FlowControl.Proofs.Sizing.Collapsed
import FlowControl.Proofs.Config.Pressure
