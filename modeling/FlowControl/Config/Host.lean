import FlowControl.Config.Basic
import FlowControl.Gate.Host
import FlowControl.Sizing.Pass

/-!
# Working on a configuration

Most calls on a configuration can reach client code: listeners of the write signal and of the
auto-read switch, hooks of declared options, and the closure of a read pass. All of these may call
the configuration again before the first call returns. The calls are therefore written over a world
`σ` that holds a configuration and knows what each kind of client call does to it.

Beside the configuration the world keeps the receive handles that earlier strategies made. A read
pass goes on with the handle it began with when its closure replaces the strategy, and the number
of handles replaced so far tells a pass which one that is.
-/

set_option autoImplicit false

namespace FlowControl

structure Host (κ σ : Type) where
  config : σ → Config κ
  setConfig : Config κ → σ → σ
  note : Notice → σ → σ
  writabilityChanged : Nat → Bool → σ → σ
  autoReadChanged : Nat → Bool → σ → σ
  /-- Ask the hook of a declared option about a value. -/
  check : Nat → Value → σ → Option String × σ
  /-- The receive handles that were replaced, oldest first. -/
  earlier : σ → List RecvHandle
  setEarlier : List RecvHandle → σ → σ
  /-- How many operations may still be started from inside callbacks. -/
  budget : σ → Nat

structure Rejection where
  key : OptionKey
  error : ConfigError
deriving DecidableEq

namespace Host

variable {κ σ : Type}

/-! ## Parts of the world -/

def modifyCore (h : Host κ σ) (f : Core → Core) (s : σ) : σ :=
  h.setConfig { h.config s with core := f (h.config s).core } s

def tryCore (h : Host κ σ) (f : Core → Except ConfigError Core) (s : σ) :
    Except ConfigError Unit × σ :=
  match f (h.config s).core with
  | .ok core => (.ok (), h.setConfig { h.config s with core } s)
  | .error e => (.error e, s)

def gateHost (h : Host κ σ) : GateHost σ where
  gate s := (h.config s).core.gate
  setGate gate s := h.modifyCore (fun c => { c with gate }) s
  note := h.note
  call := h.writabilityChanged
  budget := h.budget

/-- The world, seen as one with numbered receive handles: the earlier ones, and the one in use. -/
def handleHost (h : Host κ σ) : HandleHost σ where
  current s := (h.earlier s).length
  handle i s := (h.earlier s)[i]?.getD (h.config s).core.handle
  setHandle i handle s :=
    if i < (h.earlier s).length then h.setEarlier ((h.earlier s).set i handle) s
    else h.modifyCore (fun c => { c with handle }) s
  note := h.note

def registryHost (h : Host κ σ) (slot : Slot) : RegistryHost σ where
  registry s :=
    match slot with
    | .layer i =>
      match (h.config s).layers[i]? with
      | some (.registry r) => r
      | _ => .empty
    | _ => (h.config s).registry
  setRegistry r s :=
    match slot with
    | .layer i => h.setConfig ((h.config s).setLayer i (.registry r)) s
    | _ => h.setConfig { h.config s with registry := r } s
  check := h.check
  budget := h.budget

/-! ## Settings of the core -/

/-- Turn auto-read on or off. Listeners hear of changes only. -/
def setAutoRead (h : Host κ σ) (on : Bool) (s : σ) : σ :=
  if (h.config s).core.autoRead = on then s
  else
    let s := h.note (.autoReadChanged on) (h.modifyCore (fun c => { c with autoRead := on }) s)
    (h.config s).core.autoReadListeners.foldl (fun s l => h.autoReadChanged l on s) s

def setStrategy (h : Host κ σ) (strategy : Strategy) (s : σ) : σ :=
  -- Passes in progress go on with the old handle.
  let old := (h.config s).core.handle
  h.note (.sizingReplaced strategy)
    (h.modifyCore (·.withStrategy strategy) (h.setEarlier (h.earlier s ++ [old]) s))

def setCore (h : Host κ σ) (o : CoreOption) (v : Value) (s : σ) : Except ConfigError Unit × σ :=
  match o, v with
  | .connectTimeout, .i32 n => h.tryCore (·.withConnectTimeout n) s
  | .maxMessages, .i32 n => h.tryCore (·.withMaxMessages n) s
  | .writeSpinCount, .i32 n => h.tryCore (·.withWriteSpinCount n) s
  | .autoRead, .bool b => (.ok (), h.setAutoRead b s)
  | .highMark, .u32 n => h.gateHost.setHigh n s
  | .lowMark, .u32 n => h.gateHost.setLow n s
  | .marks, .waterMark marks => (.ok (), h.gateHost.setMarks marks s)
  | .sizing, .sizing strategy => (.ok (), h.setStrategy strategy s)
  | .estimator, .estimator e => (.ok (), h.modifyCore (·.withEstimator e) s)
  | o, _ => (.error (.wrongType o.key.name o.key.type.fullName), s)

def addWritabilityListener (h : Host κ σ) (listener : Nat) (s : σ) : σ :=
  h.gateHost.modify (·.addListener listener) s

def addAutoReadListener (h : Host κ σ) (listener : Nat) (s : σ) : σ :=
  h.modifyCore (fun c => { c with autoReadListeners := c.autoReadListeners ++ [listener] }) s

/-! ## The write path -/

def queueMessage (h : Host κ σ) (m : Message) (s : σ) : UInt64 × σ :=
  let size := (h.config s).core.estimator.size m
  (size, h.gateHost.queue size s)

def flushMessage (h : Host κ σ) (m : Message) (s : σ) : UInt64 × σ :=
  let size := (h.config s).core.estimator.size m
  (size, h.gateHost.flush size s)

/-! ## The read path -/

def reportRead (h : Host κ σ) (bytes capacity : Nat) (s : σ) : σ :=
  h.handleHost.report (h.handleHost.current s) bytes capacity s

/-- May reading go on? Not while auto-read is off, whatever the handle says. -/
def shouldContinue (h : Host κ σ) (done bytes : Nat) (s : σ) : Bool :=
  (h.config s).core.autoRead && (h.config s).core.handle.shouldContinue done bytes

/-- One read pass with a closure of the client. The handle in use at the start serves to the end;
the auto-read switch is looked at after every read. -/
def readPass {ρ : Type} (h : Host κ σ) (read : Nat → ρ → σ → ReadStep ρ σ) (r : ρ) (s : σ) :
    PassEnd ρ σ :=
  h.handleHost.pass (fun s => (h.config s).core.autoRead) read (h.handleHost.current s) r s

end Host

end FlowControl
