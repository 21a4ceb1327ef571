import FlowControl.Proofs.Profile.Settings

/-!
# The effect of one setting

A setting of a profile is stored as the value of an option, or refused. `Effect` is what comes of it
in either case, and in the case that it is absent: which value there is, what is wrong with it, and
what is there afterwards. For every option of the core and of the socket layer this module says so
of the program's own store, and puts the single effects together to what a profile does to the whole
(`Profile.overCore_eq`, `SocketSection.overOptions_eq`).

Whoever applies settings one after the other, in a batch or in a builder, needs no more of the
options than their effects.
-/

set_option autoImplicit false

namespace FlowControl

/-- What comes of a setting, given how values of its option are stored: the value it has, what is
wrong with that, and what is there afterwards. -/
inductive Effect {α : Type} (store : Value → Except ConfigError α) (old : α) :
    Option Value → Option ConfigError → α → Prop where
  | absent : Effect store old none none old
  | stored {v : Value} {new : α} (h : store v = .ok new) : Effect store old (some v) none new
  | refused {v : Value} {e : ConfigError} (h : store v = .error e) :
    Effect store old (some v) (some e) old

/-- A number that is stored as its judge accepts it. -/
theorem Judges.effect {α β : Type} {check : Int32 → Except ConfigError β}
    {accepted? : Int32 → Option β} {fault : Int32 → Option ConfigError}
    (hcheck : Judges check accepted? fault) {store : Value → Except ConfigError α}
    (put : Option β → α) (hstore : ∀ n, store (.i32 n) = (check n).map fun b => put (some b))
    (n? : Option Int32) :
    Effect store (put none) (n?.map .i32) (n?.bind fault) (put (n?.bind accepted?)) := by
  cases n? with
  | none => exact .absent
  | some n =>
    rw [Option.bind_some, Option.bind_some]
    rcases hcheck n with ⟨b, hok, haccepted, hfault⟩ | ⟨e, herror, haccepted, hfault⟩
    · rw [haccepted, hfault]
      exact .stored (by rw [hstore, hok]; rfl)
    · rw [haccepted, hfault]
      exact .refused (by rw [hstore, herror]; rfl)

namespace Profile

variable (p : Profile)

/-- What a setting of the core does to it. -/
def overOption (c : Core) : CoreOption → Core
  | .connectTimeout =>
    { c with connectTimeout := (p.connectTimeout.bind timeout?).getD c.connectTimeout }
  | .maxMessages => { c with handle := c.handle.withLimit (p.limitOver c.handle.limit) }
  | .writeSpinCount =>
    { c with writeSpinCount := (p.writeSpinCount.bind count?).getD c.writeSpinCount }
  | .autoRead => { c with autoRead := p.autoRead.getD c.autoRead }
  | .sizing =>
    match p.newStrategy? with
    | some strategy => c.withStrategy strategy
    | none => c
  | .estimator =>
    { c with estimator := (p.estimator.map fun e => ⟨e.unknownSize⟩).getD c.estimator }
  | .highMark | .lowMark => c
  | .marks =>
    match p.newMarks? with
    | some marks => Core.store.remark c marks
    | none => c

theorem judges_count (o : CoreOption) : Judges (Core.positive o) count? (countFault o) := by
  intro n
  unfold count? countFault Core.positive
  by_cases h : 0 < n.toInt
  · exact .inl ⟨_, if_neg (by omega), if_pos h, if_pos h⟩
  · exact .inr ⟨_, if_pos (by omega), if_neg h, if_neg h⟩

theorem core_effect (c : Core) (o : CoreOption) :
    Effect (fun v => c.store o v) c (p.coreValue? o) (p.coreFault o) (p.overOption c o) := by
  cases o with
  | connectTimeout =>
    simp only [coreValue?, coreFault, overOption]
    cases p.connectTimeout with
    | none => exact .absent
    | some n =>
      simp only [Option.map_some, Option.bind_some, timeout?]
      by_cases h : 0 ≤ n.toInt
      · rw [if_pos h, if_pos h]
        exact .stored (if_neg (by omega))
      · rw [if_neg h, if_neg h]
        exact .refused (if_pos (by omega))
  | maxMessages =>
    refine (judges_count .maxMessages).effect
      (fun n? =>
        { c with handle := c.handle.withLimit ((n?.map Nat.toUInt32).getD c.handle.limit) })
      (fun n => ?_) p.maxMessages
    rfl
  | writeSpinCount =>
    refine (judges_count .writeSpinCount).effect
      (fun n? => { c with writeSpinCount := n?.getD c.writeSpinCount }) (fun n => ?_)
      p.writeSpinCount
    rfl
  | autoRead =>
    simp only [coreValue?, coreFault, overOption]
    cases p.autoRead with
    | none => exact .absent
    | some b => exact .stored rfl
  | highMark | lowMark => exact .absent
  | marks =>
    simp only [coreValue?, coreFault, overOption]
    cases p.newMarks? with
    | none => exact .absent
    | some marks => exact .stored rfl
  | sizing =>
    simp only [coreValue?, coreFault, overOption]
    cases p.newStrategy? with
    | none => exact .absent
    | some strategy => exact .stored rfl
  | estimator =>
    simp only [coreValue?, coreFault, overOption]
    cases p.estimator with
    | none => exact .absent
    | some e => exact .stored rfl

/-- One after the other, the settings of the core do to it what the profile does. -/
theorem overCore_eq (c : Core) :
    { [CoreOption.connectTimeout, .maxMessages, .writeSpinCount, .autoRead, .sizing,
        .estimator].foldl p.overOption c with gate := (p.overOption c .marks).gate }
      = p.overCore c := by
  have hgate : (p.overOption c .marks).gate = p.overGate c.gate := by
    simp only [overOption, overGate]
    cases p.newMarks? with
    | none => rfl
    | some marks => exact c.gate.withMarks_eq marks
  rw [hgate]
  simp only [List.foldl_cons, List.foldl_nil, overOption, overCore, overHandle]
  rcases p.newStrategy? with _ | _ | _ <;> rfl

end Profile

namespace SocketSection

variable (s : SocketSection)

/-- What a setting of the section does to the socket options. -/
def overOption (options : SocketOptions) : SocketOption → SocketOptions
  | .tcpNoDelay => { options with tcpNoDelay := s.tcpNoDelay.getD options.tcpNoDelay }
  | .keepAlive => { options with keepAlive := s.keepAlive.getD options.keepAlive }
  | .reuseAddress => { options with reuseAddress := s.reuseAddress.getD options.reuseAddress }
  | .receiveBufferSize =>
    { options with
      receiveBufferSize :=
        (s.receiveBufferSize.filter (0 < ·.toInt)).or options.receiveBufferSize }
  | .sendBufferSize =>
    { options with
      sendBufferSize := (s.sendBufferSize.filter (0 < ·.toInt)).or options.sendBufferSize }
  | .linger => { options with linger := (s.linger.filter (-1 ≤ ·.toInt)).getD options.linger }

theorem judges_size (o : SocketOption) :
    Judges (SocketOptions.checkedSize o) (Option.guard fun n => 0 < n.toInt)
      (Profile.sizeFault o) := by
  intro n
  unfold Profile.sizeFault SocketOptions.checkedSize
  by_cases h : 0 < n.toInt
  · exact .inl ⟨n, if_neg (by omega), if_pos (decide_eq_true h), if_pos h⟩
  · exact .inr ⟨_, if_pos (by omega), if_neg (by simpa using h), if_neg h⟩

theorem effect (options : SocketOptions) (o : SocketOption) :
    Effect (fun v => options.set o v) options (s.value? o) (s.fault o)
      (s.overOption options o) := by
  cases o with
  | tcpNoDelay =>
    simp only [value?, fault, overOption]
    cases s.tcpNoDelay with
    | none => exact .absent
    | some b => exact .stored rfl
  | keepAlive =>
    simp only [value?, fault, overOption]
    cases s.keepAlive with
    | none => exact .absent
    | some b => exact .stored rfl
  | reuseAddress =>
    simp only [value?, fault, overOption]
    cases s.reuseAddress with
    | none => exact .absent
    | some b => exact .stored rfl
  | receiveBufferSize =>
    simp only [value?, fault, overOption, ← Option.bind_guard]
    refine (judges_size .receiveBufferSize).effect
      (fun n? => { options with receiveBufferSize := n?.or options.receiveBufferSize })
      (fun n => ?_) s.receiveBufferSize
    rfl
  | sendBufferSize =>
    simp only [value?, fault, overOption, ← Option.bind_guard]
    refine (judges_size .sendBufferSize).effect
      (fun n? => { options with sendBufferSize := n?.or options.sendBufferSize })
      (fun n => ?_) s.sendBufferSize
    rfl
  | linger =>
    simp only [value?, fault, overOption]
    cases s.linger with
    | none => exact .absent
    | some n =>
      rw [Option.bind_some, Option.map_some, Option.filter_some]
      by_cases h : -1 ≤ n.toInt
      · rw [if_pos h, if_pos (decide_eq_true h)]
        exact .stored (if_neg (by omega))
      · rw [if_neg h, if_neg (by simpa using h)]
        exact .refused (if_pos (by omega))

theorem overOptions_eq (options : SocketOptions) :
    SocketOption.all.foldl s.overOption options = s.overOptions options := rfl

end SocketSection

end FlowControl
