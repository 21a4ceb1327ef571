import FlowControl.Session.Step

/-!
# Sessions

A session is a number of channel configurations together with the clients that work on them: the
option table they share, the snapshots they keep, the listeners and hooks they have installed with
the steps those still have in store, and a journal of everything that happened.

Listeners and hooks belong to the configuration on which they were installed; their steps work on
that one, whichever is current.
-/

set_option autoImplicit false

namespace FlowControl

/-- A configuration, with the receive handles that were replaced. -/
structure Channel where
  config : Config AuditLayer
  earlier : List RecvHandle

instance : Inhabited Channel := ⟨⟨.standard, []⟩⟩

structure Subscriber where
  channel : Nat
  listener : Listener Step

structure InstalledHook where
  channel : Nat
  hook : Hook Step

inductive Entry where
  | notice (n : Notice)
  | called (listener : Nat) (value : Bool)
  | asked (hook : Nat) (value : Value)
  /-- A listener, a hook or a read closure has taken a step. -/
  | did (step : Step) (outcome : Outcome)

structure Session where
  table : OptionTable
  /-- The configurations by number, or why one could not be built. -/
  channels : List (Except ConfigError Channel)
  /-- The number of the configuration that steps from outside work on. -/
  current : Nat
  saved : List OptionMap
  subscribers : List Subscriber
  hooks : List InstalledHook
  journal : List Entry

namespace Session

def addChannel (spec : BuilderSpec) (s : Session) : Session :=
  let made := spec.make s.table
  let channel : Except ConfigError Channel := do
    let config ← (← made.1).build
    return ⟨config, []⟩
  { s with table := made.2, channels := s.channels ++ [channel] }

def start (specs : List BuilderSpec) : Session :=
  specs.foldl (fun s spec => s.addChannel spec) ⟨.initial, [], 0, [], [], [], []⟩

/-! ## Looking at a session -/

def channel? (i : Nat) (s : Session) : Option Channel :=
  match s.channels[i]? with
  | some (.ok c) => some c
  | _ => none

/-- A channel that is known to exist. -/
def channel (i : Nat) (s : Session) : Channel := (s.channel? i).getD default

/-- How many steps are still waiting with listeners and hooks. -/
def budget (s : Session) : Nat :=
  s.subscribers.foldr (fun l n => Step.pendingWeight l.listener.pending + n) 0 +
    s.hooks.foldr (fun h n => Step.scriptWeight h.hook.script + n) 0

/-! ## Changing a session -/

def write (entry : Entry) (s : Session) : Session := { s with journal := s.journal ++ [entry] }

def modifyChannel (i : Nat) (f : Channel → Channel) (s : Session) : Session :=
  { s with channels := s.channels.modify i fun c => c.map f }

/-- Look up an option in the table, which may register it. -/
def resolve (o : OptionRef) (s : Session) : Except ConfigError OptionKey × Session :=
  let answer := s.table.valueOf o.name o.type
  (answer.key,
    { s with
      table := answer.table
      journal := s.journal ++ answer.notices.map .notice })

def resolveEntry (o : OptionRef) (v : ValueSpec) (s : Session) :
    Except ConfigError (OptionKey × Value) × Session :=
  match s.resolve o with
  | (.error e, s) => (.error e, s)
  | (.ok k, s) => (v.build.map fun v => (k, v), s)

/-- Look up and build the entries of a map in order, up to the first that fails. -/
def resolveMap : MapSpec → Session → Except ConfigError (List (OptionKey × Value)) × Session
  | [], s => (.ok [], s)
  | (o, v) :: rest, s =>
    match s.resolveEntry o v with
    | (.error e, s) => (.error e, s)
    | (.ok entry, s) =>
      match resolveMap rest s with
      | (.error e, s) => (.error e, s)
      | (.ok entries, s) => (.ok (entry :: entries), s)

def subscribe (channel : Nat) (label : String) (reactions : List (Reaction Step)) (s : Session) :
    Nat × Session :=
  (s.subscribers.length,
    { s with subscribers := s.subscribers ++ [⟨channel, label, reactions⟩] })

def installHook (channel : Nat) (hook : Hook Step) (s : Session) : Nat × Session :=
  (s.hooks.length, { s with hooks := s.hooks ++ [⟨channel, hook⟩] })

/-- Take the first reaction of a listener from its queue, if it waits for this value. -/
def takeReaction (listener : Nat) (value : Bool) (s : Session) : List Step × Session :=
  match s.subscribers[listener]? with
  | some ⟨channel, label, ⟨on, steps⟩ :: rest⟩ =>
    if on = value then
      (steps, { s with subscribers := s.subscribers.set listener ⟨channel, label, rest⟩ })
    else ([], s)
  | _ => ([], s)

def takeScript (hook : Nat) (s : Session) : List Step × Session :=
  match s.hooks[hook]? with
  | some ⟨channel, verdict, steps :: rest⟩ =>
    (steps, { s with hooks := s.hooks.set hook ⟨channel, verdict, rest⟩ })
  | _ => ([], s)

def verdict (hook : Nat) (v : Value) (s : Session) : Option String :=
  s.hooks[hook]?.bind fun h => h.hook.verdict v

end Session

end FlowControl
