import FlowControl.Config.Options

/-!
# Profiles

A profile is a declarative description of channel settings. Every setting is optional, and one that
is absent stays as it is. A profile turns into a batch of options; the two sections that have to be
built first, the water marks and the receive buffer, may fail on their own, and then only they are
left out of the batch.
-/

set_option autoImplicit false

namespace FlowControl

/-- The water marks of a profile, in whatever order they were written. -/
structure MarkSection where
  low : UInt32
  high : UInt32
deriving DecidableEq, Repr

/-- The sizing strategy of a profile, with bounds not yet judged. -/
inductive SizingSection where
  | adaptive (minimum initial maximum : UInt32)
  | fixed (capacity : UInt32)
deriving DecidableEq, Repr

structure EstimatorSection where
  unknownSize : UInt64
deriving DecidableEq, Repr

structure SocketSection where
  tcpNoDelay : Option Bool := none
  keepAlive : Option Bool := none
  reuseAddress : Option Bool := none
  receiveBufferSize : Option Int32 := none
  sendBufferSize : Option Int32 := none
  linger : Option Int32 := none
deriving DecidableEq

/-- A declarative description of channel settings. -/
structure Profile where
  connectTimeout : Option Int32 := none
  maxMessages : Option Int32 := none
  writeSpinCount : Option Int32 := none
  autoRead : Option Bool := none
  marks : Option MarkSection := none
  sizing : Option SizingSection := none
  estimator : Option EstimatorSection := none
  socket : Option SocketSection := none
deriving DecidableEq

/-- The strategy that a section asks for, if its bounds allow one. -/
def SizingSection.strategy : SizingSection → Except ConfigError Strategy
  | .adaptive minimum initial maximum =>
    Strategy.ofBounds minimum.toNat initial.toNat maximum.toNat
  | .fixed capacity => Strategy.ofCapacity capacity.toNat

namespace SocketSection

def entries (s : SocketSection) : List (OptionKey × Value) :=
  (s.tcpNoDelay.map fun b => (OptionKey.tcpNoDelay, Value.bool b)).toList ++
    (s.keepAlive.map fun b => (OptionKey.keepAlive, Value.bool b)).toList ++
    (s.reuseAddress.map fun b => (OptionKey.reuseAddress, Value.bool b)).toList ++
    (s.receiveBufferSize.map fun n => (OptionKey.receiveBufferSize, Value.i32 n)).toList ++
    (s.sendBufferSize.map fun n => (OptionKey.sendBufferSize, Value.i32 n)).toList ++
    (s.linger.map fun n => (OptionKey.linger, Value.i32 n)).toList

end SocketSection

namespace Profile

def empty : Profile := {}

instance : Inhabited Profile := ⟨empty⟩

def marks? (p : Profile) : Option (Except ConfigError WaterMark) :=
  p.marks.map fun m => WaterMark.ofPair m.low m.high

def strategy? (p : Profile) : Option (Except ConfigError Strategy) :=
  p.sizing.map SizingSection.strategy

/-- The entry for a section that has to be built, unless that fails. -/
def built {α : Type} (key : OptionKey) (value : α → Value) :
    Option (Except ConfigError α) → List (OptionKey × Value)
  | some (.ok a) => [(key, value a)]
  | _ => []

/-- The refusal of a section that could not be built. -/
def refused {α : Type} (key : OptionKey) : Option (Except ConfigError α) → List Rejection
  | some (.error e) => [⟨key, e⟩]
  | _ => []

def entries (p : Profile) : List (OptionKey × Value) :=
  (p.connectTimeout.map fun n => (OptionKey.connectTimeoutMillis, Value.i32 n)).toList ++
    (p.maxMessages.map fun n => (OptionKey.maxMessagesPerRead, Value.i32 n)).toList ++
    (p.writeSpinCount.map fun n => (OptionKey.writeSpinCount, Value.i32 n)).toList ++
    (p.autoRead.map fun b => (OptionKey.autoRead, Value.bool b)).toList ++
    built OptionKey.writeBufferWaterMark Value.waterMark p.marks? ++
    built OptionKey.recvBufferSizing Value.sizing p.strategy? ++
    (p.estimator.map fun e =>
      (OptionKey.messageSizeEstimator, Value.estimator ⟨e.unknownSize⟩)).toList ++
    (p.socket.map SocketSection.entries).getD []

/-- The batch that the profile stands for, without the sections that cannot be built. -/
def batch (p : Profile) : OptionMap := .ofList p.entries

/-- The refusals of the sections that cannot be built: the marks first, then the strategy. -/
def rejections (p : Profile) : List Rejection :=
  refused OptionKey.writeBufferWaterMark p.marks? ++ refused OptionKey.recvBufferSizing p.strategy?

/-- The batch, if every section can be built. -/
def toOptionMap (p : Profile) : Except ConfigError OptionMap :=
  match p.rejections with
  | [] => .ok p.batch
  | r :: _ => .error r.error

end Profile

namespace Host

variable {κ σ : Type} [OptionLayer κ]

/-- Apply a profile. Whatever can be applied is; the error is that of the first refusal, and a
section that cannot be built is refused before everything else. -/
def applyProfile (h : Host κ σ) (p : Profile) (s : σ) : Except ConfigError Unit × σ :=
  let out := h.trySetOptions p.batch s
  let rejected := p.rejections ++ out.1
  let s := h.note (.profileApplied p.batch.size rejected.length) out.2
  match rejected with
  | [] => (.ok (), s)
  | r :: _ => (.error r.error, s)

end Host

end FlowControl
