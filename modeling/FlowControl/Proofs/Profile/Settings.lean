import FlowControl.Profile.Basic
import FlowControl.Proofs.Config.Store
import FlowControl.Proofs.Option.Map

/-!
# The settings of a profile

A profile is thirteen settings, each of them present or not. This module says what they ask for, one
by one and without the batch: what becomes of a configuration (`Profile.overConfig`), in which valid
settings are in effect and everything else is as it was, and what is wrong with the settings that
are not valid (`Profile.fault`). Both are written down field by field, with no use of what the
program does to a configuration. Where the program has a check of its own for a setting, `Judges`
says that it accepts what is said here to be valid, and refuses the rest for the reason given here.

The second part reads the batch of a profile in the same way, as a list of options with the values
that the profile has for them. No option comes twice and they come by number, so that nothing is
lost when they are put into a map (`Profile.batch_entries`).
-/

set_option autoImplicit false

namespace FlowControl

/-! ## Sections that have to be built -/

/-- The marks of a section, if they are in order. -/
def MarkSection.marks? (m : MarkSection) : Option WaterMark :=
  if h : m.low ≤ m.high then some ⟨m.low, m.high, h⟩ else none

def MarkSection.fault (m : MarkSection) : Option ConfigError :=
  if m.low ≤ m.high then none else some (.waterMarkOrder m.low m.high)

namespace SizingSection

/-- The strategy of a section, if its bounds are positive and in order. -/
def strategy? : SizingSection → Option Strategy
  | .adaptive minimum initial maximum =>
    if 0 < minimum ∧ minimum ≤ initial ∧ initial ≤ maximum then
      some (.adaptive (.within minimum.toNat initial.toNat maximum.toNat))
    else none
  | .fixed capacity => if 0 < capacity then some (.fixed capacity.toNat) else none

def fault : SizingSection → Option ConfigError
  | .adaptive minimum initial maximum =>
    if minimum = 0 then
      some (.illegalArgument "RECV_BUFFER_SIZING" "minimum must be positive")
    else if initial < minimum then
      some (.illegalArgument "RECV_BUFFER_SIZING"
        ("initial (" ++ toString initial.toNat ++ ") must not be below minimum ("
          ++ toString minimum.toNat ++ ")"))
    else if maximum < initial then
      some (.illegalArgument "RECV_BUFFER_SIZING"
        ("maximum (" ++ toString maximum.toNat ++ ") must not be below initial ("
          ++ toString initial.toNat ++ ")"))
    else none
  | .fixed capacity =>
    if capacity = 0 then
      some (.illegalArgument "RECV_BUFFER_SIZING" "capacity must be positive")
    else none

end SizingSection

/-- A setting is judged by `check`: `accepted?` is what it accepts and `fault` why it refuses. -/
def Judges {α β : Type} (check : α → Except ConfigError β) (accepted? : α → Option β)
    (fault : α → Option ConfigError) : Prop :=
  ∀ a, (∃ b, check a = .ok b ∧ accepted? a = some b ∧ fault a = none)
    ∨ ∃ e, check a = .error e ∧ accepted? a = none ∧ fault a = some e

theorem MarkSection.judges :
    Judges (fun m : MarkSection => WaterMark.ofPair m.low m.high) marks? fault := by
  intro m
  unfold WaterMark.ofPair marks? fault
  by_cases h : m.low ≤ m.high
  · exact .inl ⟨⟨m.low, m.high, h⟩, dif_pos h, dif_pos h, if_pos h⟩
  · exact .inr ⟨_, dif_neg h, dif_neg h, if_neg h⟩

theorem SizingSection.judges : Judges strategy strategy? fault := by
  intro s
  cases s with
  | adaptive minimum initial maximum =>
    simp only [strategy, Strategy.ofBounds, Strategy.optionName, strategy?, fault,
      UInt32.lt_iff_toNat_lt, UInt32.le_iff_toNat_le, ← UInt32.toNat_inj, UInt32.toNat_zero]
    by_cases hzero : minimum.toNat = 0
    · exact .inr ⟨_, if_pos hzero, if_neg (by omega), if_pos hzero⟩
    rw [if_neg hzero, if_neg hzero]
    by_cases hinitial : initial.toNat < minimum.toNat
    · exact .inr ⟨_, if_pos hinitial, if_neg (by omega), if_pos hinitial⟩
    rw [if_neg hinitial, if_neg hinitial]
    by_cases hmaximum : maximum.toNat < initial.toNat
    · exact .inr ⟨_, if_pos hmaximum, if_neg (by omega), if_pos hmaximum⟩
    · exact .inl ⟨_, if_neg hmaximum, if_pos (by omega), if_neg hmaximum⟩
  | fixed capacity =>
    simp only [strategy, Strategy.ofCapacity, Strategy.optionName, strategy?, fault,
      UInt32.lt_iff_toNat_lt, ← UInt32.toNat_inj, UInt32.toNat_zero]
    by_cases hzero : capacity.toNat = 0
    · exact .inr ⟨_, if_pos hzero, if_neg (by omega), if_pos hzero⟩
    · exact .inl ⟨_, if_neg hzero, if_pos (by omega), if_neg hzero⟩

/-! ## What becomes of a configuration -/

namespace Profile

/-- The marks of the profile, if it has some that are in order. -/
def newMarks? (p : Profile) : Option WaterMark := p.marks.bind MarkSection.marks?

/-- The strategy of the profile, if it has one that can be built. -/
def newStrategy? (p : Profile) : Option Strategy := p.sizing.bind SizingSection.strategy?

/-- A timeout may be zero. -/
def timeout? (n : Int32) : Option Nat := if 0 ≤ n.toInt then some n.toInt.toNat else none

def count? (n : Int32) : Option Nat := if 0 < n.toInt then some n.toInt.toNat else none

/-- The read limit after the profile, whatever becomes of the handle. -/
def limitOver (p : Profile) (limit : UInt32) : UInt32 :=
  ((p.maxMessages.bind count?).map Nat.toUInt32).getD limit

/-- The handle after the profile. A new strategy comes with a fresh handle, which has read nothing,
and the read limit is that of the profile with either handle. -/
def overHandle (p : Profile) (h : RecvHandle) : RecvHandle :=
  match p.newStrategy? with
  | some (.adaptive a) =>
    ⟨.adaptive a a.initialIndex false, ⟨p.limitOver h.record.limit, 0, 0⟩⟩
  | some (.fixed capacity) => ⟨.fixed capacity, ⟨p.limitOver h.record.limit, 0, 0⟩⟩
  | none =>
    ⟨h.predictor, ⟨p.limitOver h.record.limit, h.record.lastBytes, h.record.lastCapacity⟩⟩

/-- The gate after the profile. Under new marks the signal is what the count asks for, and what it
was where the count lies between the marks. -/
def overGate (p : Profile) (g : Gate) : Gate :=
  match p.newMarks? with
  | some marks =>
    { g with
      marks
      writable := if g.writable then decide (g.queued.toNat ≤ marks.high.toNat)
        else decide (g.queued.toNat ≤ marks.low.toNat) }
  | none => g

/-- The core with the valid settings in effect. -/
def overCore (p : Profile) (c : Core) : Core where
  connectTimeout := (p.connectTimeout.bind timeout?).getD c.connectTimeout
  writeSpinCount := (p.writeSpinCount.bind count?).getD c.writeSpinCount
  autoRead := p.autoRead.getD c.autoRead
  autoReadListeners := c.autoReadListeners
  strategy := p.newStrategy?.getD c.strategy
  handle := p.overHandle c.handle
  estimator := (p.estimator.map fun e => ⟨e.unknownSize⟩).getD c.estimator
  gate := p.overGate c.gate

end Profile

/-- The socket options with the valid settings of a section in effect. -/
def SocketSection.overOptions (s : SocketSection) (o : SocketOptions) : SocketOptions where
  tcpNoDelay := s.tcpNoDelay.getD o.tcpNoDelay
  keepAlive := s.keepAlive.getD o.keepAlive
  reuseAddress := s.reuseAddress.getD o.reuseAddress
  receiveBufferSize := (s.receiveBufferSize.filter (0 < ·.toInt)).or o.receiveBufferSize
  sendBufferSize := (s.sendBufferSize.filter (0 < ·.toInt)).or o.sendBufferSize
  linger := (s.linger.filter (-1 ≤ ·.toInt)).getD o.linger

namespace Profile

/-- The configuration with the valid settings in effect, where socket settings are a matter of the
first layer, if it has one. Everything else is as it was. -/
def overConfig (p : Profile) (c : Config Empty) : Config Empty where
  core := p.overCore c.core
  layers :=
    match c.layers, p.socket with
    | .socket options :: rest, some s => .socket (s.overOptions options) :: rest
    | layers, _ => layers
  registry := c.registry

/-! ## What is wrong with a setting -/

/-- A setting, by the option it is about. -/
inductive Setting where
  | core (o : CoreOption)
  | socket (o : SocketOption)

namespace Setting

def key : Setting → OptionKey
  | .core o => o.key
  | .socket o => o.key

/-- The settings that have to be built. -/
def sections : List Setting := [.core .marks, .core .sizing]

/-- The other settings, by the numbers of their options. -/
def others : List Setting :=
  [.core .connectTimeout, .core .maxMessages, .core .writeSpinCount, .core .autoRead,
    .core .estimator] ++ SocketOption.all.map .socket

/-- The settings in the order in which their faults count. -/
def order : List Setting := sections ++ others

end Setting

def countFault (o : CoreOption) (n : Int32) : Option ConfigError :=
  if 0 < n.toInt then none
  else some (.illegalArgument o.key.name ("value must be positive, got " ++ toString n.toInt))

def sizeFault (o : SocketOption) (n : Int32) : Option ConfigError :=
  if 0 < n.toInt then none
  else some (.illegalArgument o.key.name ("buffer size must be positive, got " ++ toString n.toInt))

end Profile

namespace SocketSection

/-- The value that a section has for an option. -/
def value? (s : SocketSection) : SocketOption → Option Value
  | .tcpNoDelay => s.tcpNoDelay.map .bool
  | .keepAlive => s.keepAlive.map .bool
  | .reuseAddress => s.reuseAddress.map .bool
  | .receiveBufferSize => s.receiveBufferSize.map .i32
  | .sendBufferSize => s.sendBufferSize.map .i32
  | .linger => s.linger.map .i32

/-- What is wrong with a setting of the section, if it is present and not valid. -/
def fault (s : SocketSection) : SocketOption → Option ConfigError
  | .receiveBufferSize => s.receiveBufferSize.bind (Profile.sizeFault .receiveBufferSize)
  | .sendBufferSize => s.sendBufferSize.bind (Profile.sizeFault .sendBufferSize)
  | .linger => s.linger.bind fun n =>
    if -1 ≤ n.toInt then none
    else some (.illegalArgument "SO_LINGER"
      ("linger must be -1 (disabled) or non-negative, got " ++ toString n.toInt))
  | .tcpNoDelay | .keepAlive | .reuseAddress => none

end SocketSection

namespace Profile

/-- The value that the profile has for an option of the core: none for a section that cannot be
built. -/
def coreValue? (p : Profile) : CoreOption → Option Value
  | .connectTimeout => p.connectTimeout.map .i32
  | .maxMessages => p.maxMessages.map .i32
  | .writeSpinCount => p.writeSpinCount.map .i32
  | .autoRead => p.autoRead.map .bool
  | .highMark | .lowMark => none
  | .marks => p.newMarks?.map .waterMark
  | .sizing => p.newStrategy?.map .sizing
  | .estimator => p.estimator.map fun e => .estimator ⟨e.unknownSize⟩

def socketValue? (p : Profile) (o : SocketOption) : Option Value := p.socket.bind (·.value? o)

/-- What is wrong with a value of the core, if it is present and not valid. -/
def coreFault (p : Profile) : CoreOption → Option ConfigError
  | .connectTimeout => p.connectTimeout.bind fun n =>
    if 0 ≤ n.toInt then none
    else some (.illegalArgument "CONNECT_TIMEOUT_MILLIS"
      ("connect timeout must not be negative, got " ++ toString n.toInt))
  | .maxMessages => p.maxMessages.bind (countFault .maxMessages)
  | .writeSpinCount => p.writeSpinCount.bind (countFault .writeSpinCount)
  | _ => none

/-- What is wrong with a setting, if it is present and not valid. A section that has to be built is
not valid if that fails, and a socket setting needs a layer of socket options. -/
def fault (p : Profile) (sockets : Bool) : Setting → Option ConfigError
  | .core .marks => p.marks.bind MarkSection.fault
  | .core .sizing => p.sizing.bind SizingSection.fault
  | .core o => p.coreFault o
  | .socket o =>
    if sockets then p.socket.bind (·.fault o)
    else (p.socketValue? o).map fun _ => .unsupportedOption o.key.name

/-- The refusal of a setting. -/
def refusal? (p : Profile) (sockets : Bool) (x : Setting) : Option Rejection :=
  (p.fault sockets x).map fun e => ⟨x.key, e⟩

end Profile

/-! ## The batch -/

/-- The options of a list for which there are values, with these values. -/
def valued {ι : Type} (key : ι → OptionKey) (value? : ι → Option Value) (all : List ι) :
    List (OptionKey × Value) :=
  all.filterMap fun o => (value? o).map fun v => (key o, v)

theorem filterMap_cons_toList {α β : Type} (f : α → Option β) (a : α) (rest : List α) :
    (a :: rest).filterMap f = (f a).toList ++ rest.filterMap f := by
  rw [List.filterMap_cons]
  cases f a <;> rfl

section Valued

variable {ι : Type} {key : ι → OptionKey} {value? : ι → Option Value}

theorem map_valued_sublist (all : List ι) :
    ((valued key value? all).map (·.1)).Sublist (all.map key) := by
  induction all with
  | nil => exact .slnil
  | cons o rest ih =>
    rw [valued, filterMap_cons_toList, List.map_append, List.map_cons]
    cases value? o with
    | none => exact ih.cons _
    | some v => exact ih.cons_cons _

/-- Where keys tell options apart, what is found for an option is its value. -/
theorem find?_valued [DecidableEq ι] {o : ι}
    (hkey : ∀ o', (key o').same (key o) = decide (o' = o)) (os : List ι) :
    ((valued key value? os).find? fun e => e.1.same (key o)).map (·.2)
      = if o ∈ os then value? o else none := by
  induction os with
  | nil => rfl
  | cons o' rest ih =>
    rw [valued] at ih
    rw [valued, filterMap_cons_toList, List.find?_append, Option.map_or, ih]
    by_cases heq : o' = o
    · subst heq
      cases hv : value? o' with
      | none => simp
      | some v => simp [hkey]
    · cases hv : value? o' with
      | none => simp [Ne.symm heq]
      | some v => simp [hkey, heq, Ne.symm heq]

end Valued

namespace OptionMap

theorem insertEntry_of_lt {k : OptionKey} {es : List (OptionKey × Value)}
    (h : ∀ e ∈ es, e.1.id < k.id) (v : Value) : insertEntry k v es = es ++ [(k, v)] := by
  induction es with
  | nil => rfl
  | cons e rest ih =>
    have he : e.1.id < k.id := h e List.mem_cons_self
    rw [insertEntry, if_neg (by omega), if_pos he,
      ih fun e' he' => h e' (List.mem_cons_of_mem _ he')]
    rfl

/-- Entries that come by number stay as they come. -/
theorem extend_entries {m : OptionMap} {es : List (OptionKey × Value)}
    (h : (m.entries ++ es).Pairwise fun e e' => e.1.id < e'.1.id) :
    (m.extend es).entries = m.entries ++ es := by
  induction es generalizing m with
  | nil => simp [extend]
  | cons e rest ih =>
    have hlast : ∀ e' ∈ m.entries, e'.1.id < e.1.id :=
      fun e' he' => (List.pairwise_append.1 h).2.2 e' he' e List.mem_cons_self
    have hinsert : (m.insert e.1 e.2).entries = m.entries ++ [e] := insertEntry_of_lt hlast e.2
    have hrest : (m.extend (e :: rest)).entries = ((m.insert e.1 e.2).extend rest).entries := rfl
    rw [List.append_cons] at h
    rw [hrest, ih (by rw [hinsert]; exact h), hinsert, ← List.append_cons]

theorem ofList_entries {es : List (OptionKey × Value)}
    (h : es.Pairwise fun e e' => e.1.id < e'.1.id) : (ofList es).entries = es :=
  extend_entries h

end OptionMap

namespace Profile

variable (p : Profile)

/-- The entry of a section that has to be built, and its refusal. -/
theorem built_eq {α β : Type} {check : α → Except ConfigError β} {accepted? : α → Option β}
    {fault : α → Option ConfigError} (hcheck : Judges check accepted? fault) (key : OptionKey)
    (value : β → Value) (a? : Option α) :
    built key value (a?.map check) = ((a?.bind accepted?).map fun b => (key, value b)).toList
      ∧ refused key (a?.map check) = ((a?.bind fault).map fun e => ⟨key, e⟩).toList := by
  cases a? with
  | none => exact ⟨rfl, rfl⟩
  | some a =>
    rw [Option.map_some, Option.bind_some, Option.bind_some]
    rcases hcheck a with ⟨b, hok, haccepted, hfault⟩ | ⟨e, herror, haccepted, hfault⟩
    · rw [hok, haccepted, hfault]
      exact ⟨rfl, rfl⟩
    · rw [herror, haccepted, hfault]
      exact ⟨rfl, rfl⟩

theorem socketEntries_eq (s : SocketSection) :
    s.entries = valued SocketOption.key s.value? SocketOption.all := by
  simp [SocketSection.entries, valued, SocketOption.all, filterMap_cons_toList,
    SocketSection.value?, SocketOption.key, Option.map_map, Function.comp_def]

/-- The batch lists the options of the core and then those of the socket layer, by number. -/
theorem entries_eq : p.entries = valued CoreOption.key p.coreValue? CoreOption.all
    ++ valued SocketOption.key p.socketValue? SocketOption.all := by
  have hsocket : (p.socket.map SocketSection.entries).getD []
      = valued SocketOption.key p.socketValue? SocketOption.all := by
    cases hs : p.socket with
    | none => simp [valued, socketValue?, hs]
    | some s => simp [socketEntries_eq, valued, socketValue?, hs]
  have hmarks := (built_eq MarkSection.judges .writeBufferWaterMark Value.waterMark p.marks).1
  have hsizing := (built_eq SizingSection.judges .recvBufferSizing Value.sizing p.sizing).1
  simp [entries, hsocket, marks?, strategy?, hmarks, hsizing, valued, CoreOption.all,
    filterMap_cons_toList, coreValue?, newMarks?, newStrategy?, CoreOption.key, Option.map_map,
    Function.comp_def]

theorem entries_ordered : p.entries.Pairwise fun e e' => e.1.id < e'.1.id := by
  have hkeys : (p.entries.map (·.1)).Sublist OptionKey.builtIns := by
    rw [entries_eq, List.map_append]
    exact (map_valued_sublist _).append (map_valued_sublist _)
  have hbuiltIns : OptionKey.builtIns.Pairwise fun k k' => k.id < k'.id := by decide
  have hmapped : (p.entries.map (·.1)).Pairwise fun k k' => k.id < k'.id := hbuiltIns.sublist hkeys
  rw [List.pairwise_map] at hmapped
  exact hmapped

theorem batch_entries : p.batch.entries = p.entries := OptionMap.ofList_entries p.entries_ordered

/-- The sections that cannot be built are refused before all other settings, and in this order. -/
theorem rejections_eq (sockets : Bool) :
    p.rejections = Setting.sections.filterMap (p.refusal? sockets) := by
  have hmarks := (built_eq MarkSection.judges .writeBufferWaterMark Value.waterMark p.marks).2
  have hsizing := (built_eq SizingSection.judges .recvBufferSizing Value.sizing p.sizing).2
  rw [rejections, marks?, strategy?, hmarks, hsizing, Setting.sections, filterMap_cons_toList,
    filterMap_cons_toList, List.filterMap_nil, List.append_nil]
  rfl

end Profile

end FlowControl
