import FlowControl.Config.Quiet
import FlowControl.Proofs.Gate.Calls

/-!
# Writes among quiet clients

Among quiet clients a write is over when the configuration has changed: no listener answers with an
operation, and no hook does more than judge. What a write does is then a function of the
configuration alone. This file gives that function layer by layer (`Core.store`, `Registry.write`,
`Layer.store`) and for the chain (`Config.store`), and shows that the quiet host follows it.

The functions know nothing of notices and calls, so that a statement about the configuration can be
proved without them.
-/

set_option autoImplicit false

namespace FlowControl

/-- The gate after its marks were replaced. -/
def Gate.withMarks (marks : WaterMark) (g : Gate) : Gate := Gate.settled { g with marks }

/-- An open gate stays open up to the high mark, and a closed one opens from the low mark down. -/
theorem Gate.withMarks_eq (marks : WaterMark) (g : Gate) :
    g.withMarks marks = { g with
      marks
      writable := if g.writable then decide (g.queued.toNat ≤ marks.high.toNat)
        else decide (g.queued.toNat ≤ marks.low.toNat) } := by
  obtain ⟨queued, old, writable, listeners⟩ := g
  unfold withMarks settled flipped?
  cases writable with
  | true =>
    by_cases hlt : marks.high.toNat < queued.toNat
    · simp [hlt]
    · simp [hlt, Nat.not_lt.1 hlt]
  | false =>
    by_cases hle : queued.toNat ≤ marks.low.toNat
    · simp [hle]
    · simp [hle]

/-- Store the value of a core option. -/
def Core.store (o : CoreOption) (v : Value) (c : Core) : Except ConfigError Core :=
  match o, v with
  | .connectTimeout, .i32 n => c.withConnectTimeout n
  | .maxMessages, .i32 n => c.withMaxMessages n
  | .writeSpinCount, .i32 n => c.withWriteSpinCount n
  | .autoRead, .bool b => .ok { c with autoRead := b }
  | .highMark, .u32 n => (c.gate.marks.merge none n).map remark
  | .lowMark, .u32 n => (c.gate.marks.merge n none).map remark
  | .marks, .waterMark marks => .ok (remark marks)
  | .sizing, .sizing strategy => .ok (c.withStrategy strategy)
  | .estimator, .estimator e => .ok (c.withEstimator e)
  | o, _ => .error (.wrongType o.key.name o.key.type.fullName)
where
  remark (marks : WaterMark) : Core := { c with gate := c.gate.withMarks marks }

/-- Write a declared option, given the verdicts of the hooks. -/
def Registry.write (verdict : Nat → Value → Option String) (k : OptionKey) (v : Value)
    (r : Registry) : Option (Except ConfigError Registry) :=
  (r.find? k).map fun d =>
    match k.expectType v with
    | .error e => .error e
    | .ok () =>
      match d.hook.bind (verdict · v) with
      | some reason => .error (.illegalArgument k.name reason)
      | none => .ok (r.store k v)

section Chain

variable {κ : Type} [OptionLayer κ]

/-- Write an option of a layer, if the layer claims it. -/
def Layer.store (verdict : Nat → Value → Option String) (k : OptionKey) (v : Value) :
    Layer κ → Option (Except ConfigError (Layer κ))
  | .socket options => (options.trySet k v).map (·.map .socket)
  | .registry r => (r.write verdict k v).map (·.map .registry)
  | .custom l => (OptionLayer.trySet k v l).map (·.map .custom)

namespace Config

/-- Write an option into the layer at a place of the chain, if the layer claims it. -/
def storeAt (verdict : Nat → Value → Option String) (k : OptionKey) (v : Value) (c : Config κ) :
    Slot → Option (Except ConfigError (Config κ))
  | .core => (CoreOption.ofKey? k).map fun o => (c.core.store o v).map fun core => { c with core }
  | .layer i => (c.layers[i]?.bind (Layer.store verdict k v)).map (·.map fun l => c.setLayer i l)
  | .registry => (c.registry.write verdict k v).map (·.map fun registry => { c with registry })

/-- Write an option: the first layer that claims it decides. -/
def store (verdict : Nat → Value → Option String) (k : OptionKey) (v : Value) (c : Config κ) :
    Option (Except ConfigError (Config κ)) :=
  c.chain.findSome? (c.storeAt verdict k v)

end Config

end Chain

namespace Quiet

variable {κ : Type} (verdict : Nat → Value → Option String)

/-! ## The gate -/

theorem notify_config (g : Gate) (s : Quiet κ) :
    ((host verdict).gateHost.notify g s).config = s.config := by
  unfold GateHost.notify
  induction g.listeners generalizing s with
  | nil => rfl
  | cons listener rest ih =>
    rw [List.foldl_cons, ih]
    rfl

/-- No listener acts, so one look at the signal is enough. -/
theorem settle_eq (s : Quiet κ) :
    (host verdict).gateHost.settle s =
      match s.config.core.gate.flipped? with
      | none => s
      | some g => (host verdict).gateHost.flip g s := by
  have hgate : (host verdict).gateHost.gate s = s.config.core.gate := rfl
  rw [GateHost.settle, hgate]
  cases s.config.core.gate.flipped? with
  | none => rfl
  | some g =>
    have hbudget : ¬ (host verdict).gateHost.budget ((host verdict).gateHost.flip g s) <
        (host verdict).gateHost.budget s := Nat.lt_irrefl 0
    exact if_neg hbudget

theorem settle_config (s : Quiet κ) :
    ((host verdict).gateHost.settle s).config =
      { s.config with core := { s.config.core with gate := s.config.core.gate.settled } } := by
  rw [settle_eq]
  unfold Gate.settled
  cases s.config.core.gate.flipped? with
  | none => rfl
  | some g =>
    dsimp only
    rw [GateHost.flip, notify_config]
    rfl

theorem setMarks_config (marks : WaterMark) (s : Quiet κ) :
    ((host verdict).gateHost.setMarks marks s).config =
      { s.config with core := Core.store.remark s.config.core marks } := by
  unfold GateHost.setMarks
  rw [settle_config]
  rfl

/-! ## One layer -/

/-- How the answer to a write and the world afterwards follow from what the write does to the
configuration: nothing where it is `none`. -/
inductive Outcome (s : Quiet κ) :
    Option (Except ConfigError (Config κ)) → Option (Except ConfigError Unit) × Quiet κ → Prop where
  | unclaimed : Outcome s none (none, s)
  | refused (e : ConfigError) (s' : Quiet κ) :
    s'.config = s.config → Outcome s (some (.error e)) (some (.error e), s')
  | stored (c : Config κ) (s' : Quiet κ) :
    s'.config = c → Outcome s (some (.ok c)) (some (.ok ()), s')

theorem tryCore_outcome (f : Core → Except ConfigError Core) (s : Quiet κ) :
    Outcome s (some ((f s.config.core).map fun core => { s.config with core }))
      (some ((host verdict).tryCore f s).1, ((host verdict).tryCore f s).2) := by
  have hcore : ((host verdict).config s).core = s.config.core := rfl
  unfold Host.tryCore
  rw [hcore]
  cases f s.config.core with
  | ok core => exact .stored _ _ rfl
  | error e => exact .refused _ _ rfl

/-- Both single marks are judged as a pair with the other side. -/
theorem pair_outcome (low high : UInt32) (s : Quiet κ) :
    let out : Except ConfigError Unit × Quiet κ :=
      if hle : low ≤ high then (.ok (), (host verdict).gateHost.setMarks ⟨low, high, hle⟩ s)
      else (.error (.waterMarkOrder low high), s)
    Outcome s (some (((WaterMark.ofPair low high).map (Core.store.remark s.config.core)).map
      fun core => { s.config with core })) (some out.1, out.2) := by
  simp only [WaterMark.ofPair]
  by_cases hle : low ≤ high
  · simp only [dif_pos hle]
    exact .stored _ _ (setMarks_config verdict _ s)
  · simp only [dif_neg hle]
    exact .refused _ _ rfl

theorem setAutoRead_config (on : Bool) (s : Quiet κ) :
    ((host verdict).setAutoRead on s).config =
      { s.config with core := { s.config.core with autoRead := on } } := by
  have tell : ∀ (listeners : List Nat) (s : Quiet κ),
      (listeners.foldl (fun s l => (host verdict).autoReadChanged l on s) s).config = s.config := by
    intro listeners
    induction listeners with
    | nil => exact fun _ => rfl
    | cons listener rest ih =>
      intro s
      rw [List.foldl_cons, ih]
      rfl
  have hcore : ((host verdict).config s).core = s.config.core := rfl
  unfold Host.setAutoRead
  rw [hcore]
  split
  case isTrue hsame => rw [← hsame]
  case isFalse =>
    rw [tell]
    rfl

theorem setCore_outcome (o : CoreOption) (v : Value) (s : Quiet κ) :
    Outcome s (some ((s.config.core.store o v).map fun core => { s.config with core }))
      (some ((host verdict).setCore o v s).1, ((host verdict).setCore o v s).2) := by
  cases o with
  | connectTimeout =>
    cases v with
    | i32 n => exact tryCore_outcome verdict (·.withConnectTimeout n) s
    | _ => exact .refused _ _ rfl
  | maxMessages =>
    cases v with
    | i32 n => exact tryCore_outcome verdict (·.withMaxMessages n) s
    | _ => exact .refused _ _ rfl
  | writeSpinCount =>
    cases v with
    | i32 n => exact tryCore_outcome verdict (·.withWriteSpinCount n) s
    | _ => exact .refused _ _ rfl
  | autoRead =>
    cases v with
    | bool b => exact .stored _ _ (setAutoRead_config verdict b s)
    | _ => exact .refused _ _ rfl
  | highMark =>
    cases v with
    | u32 n => exact pair_outcome verdict s.config.core.gate.marks.low n s
    | _ => exact .refused _ _ rfl
  | lowMark =>
    cases v with
    | u32 n => exact pair_outcome verdict n s.config.core.gate.marks.high s
    | _ => exact .refused _ _ rfl
  | marks =>
    cases v with
    | waterMark marks => exact .stored _ _ (setMarks_config verdict marks s)
    | _ => exact .refused _ _ rfl
  | sizing =>
    cases v with
    | sizing strategy => exact .stored _ _ rfl
    | _ => exact .refused _ _ rfl
  | estimator =>
    cases v with
    | estimator e => exact .stored _ _ rfl
    | _ => exact .refused _ _ rfl

theorem judge_eq (slot : Slot) (hook : Option Nat) (v : Value) (s : Quiet κ) :
    ((host verdict).registryHost slot).judge hook v s = (hook.bind (verdict · v), s) := by
  cases hook <;> rfl

/-- The hook in force is still the one that was asked, so its verdict is the last word. -/
theorem trySet_eq (slot : Slot) (k : OptionKey) (v : Value) (s : Quiet κ) :
    ((host verdict).registryHost slot).trySet k v s =
      match (((host verdict).registryHost slot).registry s).write verdict k v with
      | none => (none, s)
      | some (.error e) => (some (.error e), s)
      | some (.ok r) => (some (.ok ()), ((host verdict).registryHost slot).setRegistry r s) := by
  unfold RegistryHost.trySet Registry.write
  cases hd : (((host verdict).registryHost slot).registry s).find? k with
  | none => rfl
  | some d =>
    simp only [Option.map_some]
    cases k.expectType v with
    | error e => rfl
    | ok _ =>
      unfold RegistryHost.storeJudged
      simp only [judge_eq]
      cases d.hook.bind (verdict · v) with
      | some reason => rfl
      | none => simp only [hd, if_true]

section Chain

variable [OptionLayer κ]

theorem trySetAt_outcome (k : OptionKey) (v : Value) (slot : Slot) (s : Quiet κ) :
    Outcome s (s.config.storeAt verdict k v slot) ((host verdict).trySetAt k v slot s) := by
  cases slot with
  | core =>
    simp only [Config.storeAt, Host.trySetAt]
    cases CoreOption.ofKey? k with
    | none => exact .unclaimed
    | some o => exact setCore_outcome verdict o v s
  | layer i =>
    have hlayers : ((host verdict).config s).layers[i]? = s.config.layers[i]? := rfl
    simp only [Config.storeAt, Host.trySetAt, hlayers]
    cases hl : s.config.layers[i]? with
    | none => exact .unclaimed
    | some l =>
      cases l with
      | socket options =>
        simp only [Option.bind_some, Layer.store]
        rcases options.trySet k v with _ | _ | options'
        · exact .unclaimed
        · exact .refused _ _ rfl
        · exact .stored _ _ rfl
      | registry r =>
        have hr : ((host verdict).registryHost (.layer i)).registry s = r := by
          simp only [Host.registryHost, hlayers, hl]
        simp only [Option.bind_some, Layer.store, trySet_eq, hr]
        rcases r.write verdict k v with _ | _ | r'
        · exact .unclaimed
        · exact .refused _ _ rfl
        · exact .stored _ _ rfl
      | custom layer =>
        simp only [Option.bind_some, Layer.store]
        rcases OptionLayer.trySet k v layer with _ | _ | layer'
        · exact .unclaimed
        · exact .refused _ _ rfl
        · exact .stored _ _ rfl
  | registry =>
    have hr : ((host verdict).registryHost .registry).registry s = s.config.registry := rfl
    simp only [Config.storeAt, Host.trySetAt, trySet_eq, hr]
    rcases s.config.registry.write verdict k v with _ | _ | r'
    · exact .unclaimed
    · exact .refused _ _ rfl
    · exact .stored _ _ rfl

/-! ## The chain -/

/-- What an answer of `setOption` says when the write does `r` to the configuration `c`. -/
def answer (c : Config κ) :
    Option (Except ConfigError (Config κ)) → Except ConfigError Bool × Config κ
  | none => (.ok false, c)
  | some (.error e) => (.error e, c)
  | some (.ok c') => (.ok true, c')

/-- Layers that do not claim the option leave the world as it is, so the one that does still meets
the configuration with which the search began. -/
theorem setThrough_config (k : OptionKey) (v : Value) (slots : List Slot) (s : Quiet κ) :
    let out := (host verdict).setThrough k v slots s
    (out.1, out.2.config) = answer s.config (slots.findSome? (s.config.storeAt verdict k v)) := by
  induction slots with
  | nil => rfl
  | cons slot rest ih =>
    have hslot := trySetAt_outcome verdict k v slot s
    simp only [Host.setThrough, List.findSome?_cons]
    generalize s.config.storeAt verdict k v slot = r at hslot
    generalize (host verdict).trySetAt k v slot s = out at hslot
    cases hslot with
    | unclaimed => exact ih
    | refused e s' hs' => exact Prod.ext rfl hs'
    | stored c s' hs' => exact Prod.ext rfl hs'

theorem setOption_config (k : OptionKey) (v : Value) (s : Quiet κ) :
    let out := (host verdict).setOption k v s
    (out.1, out.2.config) = answer s.config (s.config.store verdict k v) :=
  setThrough_config verdict k v s.config.chain s

/-- The three ways in which setting an option can end. -/
theorem setOption_cases {k : OptionKey} {v : Value} {s s' : Quiet κ}
    {r : Except ConfigError Bool} (h : (host verdict).setOption k v s = (r, s')) :
    (r = .ok true ∧ s.config.store verdict k v = some (.ok s'.config)) ∨
      (r = .ok false ∧ s'.config = s.config ∧ s.config.store verdict k v = none) ∨
      ∃ e, r = .error e ∧ s'.config = s.config ∧
        s.config.store verdict k v = some (.error e) := by
  have hout := setOption_config verdict k v s
  simp only [h] at hout
  rcases hstore : s.config.store verdict k v with _ | e | c
  · rw [hstore] at hout
    obtain ⟨hr, hconfig⟩ := Prod.mk.inj hout
    exact .inr (.inl ⟨hr, hconfig, rfl⟩)
  · rw [hstore] at hout
    obtain ⟨hr, hconfig⟩ := Prod.mk.inj hout
    exact .inr (.inr ⟨e, hr, hconfig, rfl⟩)
  · rw [hstore] at hout
    obtain ⟨hr, hconfig⟩ := Prod.mk.inj hout
    refine .inl ⟨hr, ?_⟩
    rw [hconfig]

end Chain

end Quiet

end FlowControl
