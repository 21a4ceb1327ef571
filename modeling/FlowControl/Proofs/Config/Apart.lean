import FlowControl.Proofs.Config.SetOption
import Mathlib.Data.List.Find

/-!
# Writes of different options

Two writes of different options have nothing to do with each other: the one is accepted or refused
the same way whether or not the other came first, and if both are accepted their order does not show
in the result (`Write.Apart`). This is less obvious than it sounds. The read limit is kept in the
receive handle that a change of strategy replaces, a registry keeps all its options in one list, and
which layer decides about an option is found out anew by every write.

The water marks are the exception: three options over one pair, each judged by what the others have
left there. A write of one of them is apart from the other options only.

`Config.apart_store` is the result for the chain. It follows layer by layer, from the ways in which
each layer stores its options.
-/

set_option autoImplicit false

namespace FlowControl

/-- A write of one option: `none` if it is not claimed, else a refusal or what becomes of `a`. -/
abbrev Write (α : Type) := α → Option (Except ConfigError α)

namespace Write

variable {α : Type}

/-- What a client hears about a write. -/
def answer (r : Option (Except ConfigError α)) : Option (Except ConfigError Unit) :=
  r.map (·.map fun _ => ())

@[simp] theorem answer_none : answer (none : Option (Except ConfigError α)) = none := rfl

@[simp] theorem answer_error (e : ConfigError) :
    answer (some (.error e) : Option (Except ConfigError α)) = some (.error e) := rfl

@[simp] theorem answer_ok (a : α) : answer (some (.ok a)) = some (.ok ()) := rfl

/-- A wrapped result is answered like the result itself. -/
@[simp] theorem answer_map {β : Type} (f : α → β) (r : Option (Except ConfigError α)) :
    answer (r.map (·.map f)) = answer r := by
  rcases r with _ | _ | _ <;> rfl

theorem isSome_answer (r : Option (Except ConfigError α)) : (answer r).isSome = r.isSome := by
  rw [answer, Option.isSome_map]

theorem answer_eq_none_iff {r : Option (Except ConfigError α)} : answer r = none ↔ r = none :=
  Option.map_eq_none_iff

theorem answer_eq_error_iff {r : Option (Except ConfigError α)} {e : ConfigError} :
    answer r = some (.error e) ↔ r = some (.error e) := by
  rcases r with _ | _ | _ <;> simp

theorem answer_eq_ok_iff {r : Option (Except ConfigError α)} :
    answer r = some (.ok ()) ↔ ∃ a, r = some (.ok a) := by
  rcases r with _ | _ | _ <;> simp

/-- Once `w` has been accepted at `a`, `w'` is answered as it would have been before, and where both
are accepted it does not matter which comes first. -/
structure ApartAt (w w' : Write α) (a : α) : Prop where
  answered : ∀ {a₁ : α}, w a = some (.ok a₁) → answer (w' a₁) = answer (w' a)
  swap : ∀ {a₁ a₂ b b' : α}, w a = some (.ok a₁) → w' a = some (.ok a₂) →
    w' a₁ = some (.ok b) → w a₂ = some (.ok b') → b = b'

def Apart (w w' : Write α) : Prop := ∀ a, ApartAt w w' a

variable {β γ : Type}

theorem map_eq_ok_iff {f : α → β} {r : Option (Except ConfigError α)} {b : β} :
    r.map (·.map f) = some (.ok b) ↔ ∃ a, r = some (.ok a) ∧ f a = b := by
  rcases r with _ | _ | _ <;> simp [Except.map]

/-- Writes of one part of a whole are apart if they are as writes of that part. -/
theorem ApartAt.wrap {w w' : Write α} {W W' : Write β} {f : α → β} {a : α} (h : ApartAt w w' a)
    (hW : ∀ a, W (f a) = (w a).map (·.map f)) (hW' : ∀ a, W' (f a) = (w' a).map (·.map f)) :
    ApartAt W W' (f a) where
  answered h₁ := by
    obtain ⟨a₁, ha₁, rfl⟩ := map_eq_ok_iff.1 ((hW a).symm.trans h₁)
    rw [hW', hW', answer_map, answer_map]
    exact h.answered ha₁
  swap h₁ h₂ hb hb' := by
    obtain ⟨a₁, ha₁, rfl⟩ := map_eq_ok_iff.1 ((hW a).symm.trans h₁)
    obtain ⟨a₂, ha₂, rfl⟩ := map_eq_ok_iff.1 ((hW' a).symm.trans h₂)
    obtain ⟨d, hd, rfl⟩ := map_eq_ok_iff.1 ((hW' a₁).symm.trans hb)
    obtain ⟨d', hd', rfl⟩ := map_eq_ok_iff.1 ((hW a₂).symm.trans hb')
    exact congrArg f (h.swap ha₁ ha₂ hd hd')

/-- Writes of two different parts of a whole are apart. -/
theorem ApartAt.parts {w : Write α} {w' : Write β} {W W' : Write γ} {f : α → β → γ}
    (hW : ∀ a b, W (f a b) = (w a).map (·.map (f · b)))
    (hW' : ∀ a b, W' (f a b) = (w' b).map (·.map (f a))) (a : α) (b : β) :
    ApartAt W W' (f a b) where
  answered h₁ := by
    obtain ⟨a₁, -, rfl⟩ := map_eq_ok_iff.1 ((hW a b).symm.trans h₁)
    rw [hW', hW', answer_map, answer_map]
  swap h₁ h₂ hd hd' := by
    obtain ⟨a₁, ha₁, rfl⟩ := map_eq_ok_iff.1 ((hW a b).symm.trans h₁)
    obtain ⟨b₁, hb₁, rfl⟩ := map_eq_ok_iff.1 ((hW' a b).symm.trans h₂)
    rw [hW', hb₁] at hd
    rw [hW, ha₁] at hd'
    cases hd
    cases hd'
    rfl

end Write

open Write (answer Apart ApartAt)

theorem map_unit_positive {α : Type} {o : CoreOption} {n : Int32} {f g : Nat → α} :
    ((Core.positive o n).map f).map (fun _ => ())
      = ((Core.positive o n).map g).map fun _ => () := by
  cases Core.positive o n <;> rfl

/-! ## The core -/

namespace Core

variable {o o' : CoreOption} {v v' : Value}

/-- The water marks aside, a value is judged on its own. -/
theorem answer_store (ho : ¬ o.key.IsMark) (c d : Core) :
    answer (some (c.store o v)) = answer (some (d.store o v)) := by
  cases o with
  | highMark | lowMark | marks => exact absurd (by decide) ho
  | connectTimeout =>
    cases v with
    | i32 n =>
      simp only [store, withConnectTimeout]
      split <;> rfl
    | _ => rfl
  | maxMessages =>
    cases v with
    | i32 n => exact congrArg some map_unit_positive
    | _ => rfl
  | writeSpinCount =>
    cases v with
    | i32 n => exact congrArg some map_unit_positive
    | _ => rfl
  | autoRead | sizing | estimator => cases v <;> rfl

/-- The water marks aside, no two options are stored in the same place. A new strategy brings a new
handle, but that takes over the read limit. -/
theorem Stored.swap {c c₁ c₂ d d' : Core} (h₁ : c.Stored o v c₁) (h₂ : c.Stored o' v' c₂)
    (h : c₁.Stored o' v' d) (h' : c₂.Stored o v d') (ho : ¬ o.key.IsMark) (ho' : ¬ o'.key.IsMark)
    (hne : o' ≠ o) : d = d' := by
  cases h₁ with
  | highMark | lowMark | marks => exact absurd (by decide) ho
  | connectTimeout | maxMessages | writeSpinCount | autoRead | sizing | estimator =>
    cases h₂ with
    | highMark | lowMark | marks => exact absurd (by decide) ho'
    | connectTimeout | maxMessages | writeSpinCount | autoRead | sizing | estimator =>
      first
      | exact absurd rfl hne
      | cases h; cases h'; rfl

theorem apart_store (ho : ¬ o.key.IsMark) (ho' : ¬ o'.key.IsMark) (hne : o' ≠ o) :
    Apart (fun c : Core => some (c.store o v)) (fun c => some (c.store o' v')) := by
  have hstored : ∀ {o : CoreOption} {v : Value} {c c' : Core},
      some (c.store o v) = some (.ok c') → c.Stored o v c' :=
    fun hs => stored_of_store (Option.some.inj hs)
  intro c
  refine ⟨fun _ => answer_store ho' _ _, ?_⟩
  intro _ _ _ _ h₁ h₂ h h'
  exact (hstored h₁).swap (hstored h₂) (hstored h) (hstored h') ho ho' hne

/-- Write an option of the core, if it is one. -/
def write (k : OptionKey) (v : Value) : Write Core :=
  fun c => (CoreOption.ofKey? k).map fun o => c.store o v

theorem apart_write {k k' : OptionKey} (hk : ¬ k.IsMark) (hk' : ¬ k'.IsMark) (hne : k'.id ≠ k.id) :
    Apart (write k v) (write k' v') := by
  have hmark : ∀ {k : OptionKey} {o : CoreOption}, CoreOption.ofKey? k = some o → ¬ k.IsMark →
      ¬ o.key.IsMark := fun ho hk h =>
    hk ((OptionKey.isMark_congr (CoreOption.id_of_ofKey? ho)).1 h)
  unfold write
  cases ho : CoreOption.ofKey? k with
  | none => exact fun _ => ⟨nofun, nofun⟩
  | some o =>
    cases ho' : CoreOption.ofKey? k' with
    | none => exact fun _ => ⟨fun _ => rfl, fun _ h => nomatch h⟩
    | some o' =>
      refine apart_store (hmark ho hk) (hmark ho' hk') ?_
      rintro rfl
      exact hne ((CoreOption.id_of_ofKey? ho').symm.trans (CoreOption.id_of_ofKey? ho))

end Core

/-! ## The socket layer -/

namespace SocketOptions

variable {o o' : SocketOption} {v v' : Value}

theorem answer_set (s r : SocketOptions) :
    answer (some (s.set o v)) = answer (some (r.set o v)) := by
  have hsize : ∀ {o : SocketOption} {n : Int32} {f g : Int32 → SocketOptions},
      ((checkedSize o n).map f).map (fun _ => ()) = ((checkedSize o n).map g).map fun _ => () := by
    intro o n f g
    cases checkedSize o n <;> rfl
  cases o with
  | tcpNoDelay | keepAlive | reuseAddress => cases v <;> rfl
  | receiveBufferSize | sendBufferSize =>
    cases v with
    | i32 n => exact congrArg some hsize
    | _ => rfl
  | linger =>
    cases v with
    | i32 n =>
      simp only [set, withLinger]
      split <;> rfl
    | _ => rfl

theorem Stored.swap {s s₁ s₂ r r' : SocketOptions} (h₁ : s.Stored o v s₁) (h₂ : s.Stored o' v' s₂)
    (h : s₁.Stored o' v' r) (h' : s₂.Stored o v r') (hne : o' ≠ o) : r = r' := by
  cases h₁ <;> cases h₂ <;>
    first
    | exact absurd rfl hne
    | cases h; cases h'; rfl

theorem apart_set (hne : o' ≠ o) :
    Apart (fun s : SocketOptions => some (s.set o v)) (fun s => some (s.set o' v')) := by
  have hstored : ∀ {o : SocketOption} {v : Value} {s s' : SocketOptions},
      some (s.set o v) = some (.ok s') → s.Stored o v s' :=
    fun hs => stored_of_set (Option.some.inj hs)
  intro s
  refine ⟨fun _ => answer_set _ _, ?_⟩
  intro _ _ _ _ h₁ h₂ h h'
  exact (hstored h₁).swap (hstored h₂) (hstored h) (hstored h') hne

theorem apart_trySet {k k' : OptionKey} (hne : k'.id ≠ k.id) :
    Apart (trySet k v) (trySet k' v') := by
  unfold trySet
  cases ho : SocketOption.ofKey? k with
  | none => exact fun _ => ⟨nofun, nofun⟩
  | some o =>
    cases ho' : SocketOption.ofKey? k' with
    | none => exact fun _ => ⟨fun _ => rfl, fun _ h => nomatch h⟩
    | some o' =>
      refine apart_set ?_
      rintro rfl
      exact hne ((SocketOption.id_of_ofKey? ho').symm.trans (SocketOption.id_of_ofKey? ho))

end SocketOptions

/-! ## Registries -/

namespace Registry

variable {verdict : Nat → Value → Option String} {k k' : OptionKey} {v v' : Value}

theorem store_comm (hne : k'.id ≠ k.id) (r : Registry) :
    (r.store k v).store k' v' = (r.store k' v').store k v := by
  simp only [store, List.map_map, mk.injEq, List.map_inj_left, Function.comp_apply]
  intro d _
  by_cases hk : d.key.same k
  · have hk' : ¬ d.key.same k' := by
      rw [OptionKey.same_iff] at hk ⊢
      exact fun h => hne (h.symm.trans hk)
    simp [hk, hk']
  · by_cases hk' : d.key.same k' <;> simp [hk, hk']

/-- A stored value changes neither which options are declared nor their hooks, and a write is judged
by these alone. -/
theorem answer_write_store (r : Registry) :
    answer ((r.store k v).write verdict k' v') = answer (r.write verdict k' v') := by
  unfold write
  rw [find?_store]
  cases r.find? k' with
  | none => rfl
  | some d =>
    have hhook : (if d.key.same k then { d with value := v } else d).hook = d.hook := by
      split <;> rfl
    simp only [Option.map_some, hhook]
    cases k'.expectType v' with
    | error e => rfl
    | ok _ => cases d.hook.bind (verdict · v') <;> rfl

theorem apart_write (hne : k'.id ≠ k.id) : Apart (write verdict k v) (write verdict k' v') := by
  intro r
  refine ⟨?_, ?_⟩
  · intro _ h
    obtain ⟨_, _, _, _, rfl⟩ := eq_store_of_write h
    exact answer_write_store r
  · intro _ _ _ _ h₁ h₂ h h'
    obtain ⟨_, _, _, _, rfl⟩ := eq_store_of_write h₁
    obtain ⟨_, _, _, _, rfl⟩ := eq_store_of_write h₂
    obtain ⟨_, _, _, _, rfl⟩ := eq_store_of_write h
    obtain ⟨_, _, _, _, rfl⟩ := eq_store_of_write h'
    exact store_comm hne r

end Registry

theorem Layer.apart_store {verdict : Nat → Value → Option String} {k k' : OptionKey} {v v' : Value}
    (hne : k'.id ≠ k.id) :
    Apart (store verdict k v : Write (Layer Empty)) (store verdict k' v') := by
  intro l
  cases l with
  | socket options =>
    exact (SocketOptions.apart_trySet hne options).wrap (fun _ => rfl) (fun _ => rfl)
  | registry r => exact (Registry.apart_write hne r).wrap (fun _ => rfl) (fun _ => rfl)
  | custom e => exact e.elim

/-! ## The places of the chain -/

/-- What is kept at a place of the chain. -/
def Slot.Kept : Slot → Type
  | .core => Core
  | .layer _ => Layer Empty
  | .registry => Registry

/-- Write an option into what is kept at a place. -/
def Slot.write (verdict : Nat → Value → Option String) (k : OptionKey) (v : Value) :
    (slot : Slot) → Write slot.Kept
  | .core => Core.write k v
  | .layer _ => Layer.store verdict k v
  | .registry => Registry.write verdict k v

theorem Slot.apart_write {verdict : Nat → Value → Option String} {k k' : OptionKey} {v v' : Value}
    (hk : ¬ k.IsMark) (hk' : ¬ k'.IsMark) (hne : k'.id ≠ k.id) (slot : Slot) :
    Apart (slot.write verdict k v) (slot.write verdict k' v') := by
  cases slot with
  | core => exact Core.apart_write hk hk' hne
  | layer i => exact Layer.apart_store hne
  | registry => exact Registry.apart_write hne

namespace Config

variable {verdict : Nat → Value → Option String} {k k' : OptionKey} {v v' : Value}
  {c c₁ : Config Empty} {slot slot' : Slot}

def put : (slot : Slot) → slot.Kept → Config Empty → Config Empty
  | .core, core, c => { c with core }
  | .layer i, l, c => c.setLayer i l
  | .registry, registry, c => { c with registry }

theorem chain_setLayer (i : Nat) (l : Layer Empty) : (c.setLayer i l).chain = c.chain := by
  simp only [chain, setLayer, List.length_set]

theorem chain_put (a : slot.Kept) : (put slot a c).chain = c.chain := by
  cases slot with
  | core | registry => rfl
  | layer i => exact chain_setLayer i a

theorem lt_of_mem_chain {i : Nat} (h : .layer i ∈ c.chain) : i < c.layers.length := by
  simpa [chain] using h

theorem exists_put_eq (h : slot ∈ c.chain) : ∃ a : slot.Kept, put slot a c = c := by
  cases slot with
  | core => exact ⟨c.core, rfl⟩
  | registry => exact ⟨c.registry, rfl⟩
  | layer i =>
    refine ⟨c.layers.get ⟨i, lt_of_mem_chain h⟩, ?_⟩
    simp only [put, setLayer, List.get_eq_getElem, List.set_getElem_self]

theorem setLayer_comm {i j : Nat} (hij : i ≠ j) (l l' : Layer Empty) :
    (c.setLayer i l).setLayer j l' = (c.setLayer j l').setLayer i l := by
  simp only [setLayer, List.set_comm _ _ hij]

/-- Two places hold different parts. -/
theorem put_comm (h : slot ≠ slot') (a : slot.Kept) (b : slot'.Kept) :
    put slot' b (put slot a c) = put slot a (put slot' b c) := by
  cases slot with
  | core => cases slot' <;> first | rfl | exact absurd rfl h
  | registry => cases slot' <;> first | rfl | exact absurd rfl h
  | layer i =>
    cases slot' with
    | core | registry => rfl
    | layer j =>
      refine setLayer_comm ?_ a b
      rintro rfl
      exact h rfl

theorem storeAt_withCore (core : Core) :
    { c with core }.storeAt verdict k v .core =
      (core.write k v).map (·.map fun core => { c with core }) := by
  simp only [storeAt, Core.write, Option.map_map]
  rfl

theorem storeAt_setLayer {i : Nat} (hi : i < c.layers.length) (l : Layer Empty) :
    (c.setLayer i l).storeAt verdict k v (.layer i) =
      (l.store verdict k v).map (·.map fun l => c.setLayer i l) := by
  simp only [storeAt, setLayer, List.getElem?_set_self hi, Option.bind_some, List.set_set]

/-- A write at a place of the chain is a write of what is kept there. -/
theorem storeAt_put (h : slot ∈ c.chain) (a : slot.Kept) :
    (put slot a c).storeAt verdict k v slot =
      (slot.write verdict k v a).map (·.map (put slot · c)) := by
  cases slot with
  | core => exact storeAt_withCore a
  | registry => rfl
  | layer i => exact storeAt_setLayer (lt_of_mem_chain h) a

theorem apartAt_storeAt (hk : ¬ k.IsMark) (hk' : ¬ k'.IsMark) (hne : k'.id ≠ k.id)
    (hslot : slot ∈ c.chain) (hslot' : slot' ∈ c.chain) :
    ApartAt (storeAt verdict k v · slot) (storeAt verdict k' v' · slot') c := by
  obtain ⟨a, ha⟩ := exists_put_eq hslot
  by_cases hsame : slot = slot'
  · subst hsame
    have happart : ApartAt (storeAt verdict k v · slot) (storeAt verdict k' v' · slot)
        (put slot a c) :=
      (Slot.apart_write hk hk' hne slot a).wrap (f := (put slot · c)) (storeAt_put hslot)
        (storeAt_put hslot)
    rwa [ha] at happart
  · obtain ⟨b, hb⟩ := exists_put_eq hslot'
    have hstore : ∀ a b, (put slot' b (put slot a c)).storeAt verdict k v slot =
        (slot.write verdict k v a).map (·.map fun a => put slot' b (put slot a c)) := by
      intro a b
      simp only [put_comm hsame]
      exact storeAt_put (by rwa [chain_put]) a
    have hstore' : ∀ a b, (put slot' b (put slot a c)).storeAt verdict k' v' slot' =
        (slot'.write verdict k' v' b).map (·.map fun b => put slot' b (put slot a c)) :=
      fun a b => storeAt_put (by rwa [chain_put]) b
    have happart : ApartAt (storeAt verdict k v · slot) (storeAt verdict k' v' · slot')
        (put slot' b (put slot a c)) :=
      ApartAt.parts (f := fun a b => put slot' b (put slot a c)) hstore hstore' a b
    rwa [ha, hb] at happart

/-! ## The chain -/

theorem chain_of_storeAt (hslot : slot ∈ c.chain)
    (h : c.storeAt verdict k v slot = some (.ok c₁)) : c₁.chain = c.chain := by
  obtain ⟨a, ha⟩ := exists_put_eq hslot
  have hput : (put slot a c).storeAt verdict k v slot =
      (slot.write verdict k v a).map (·.map (put slot · c)) := storeAt_put hslot a
  rw [ha, h] at hput
  obtain ⟨_, -, rfl⟩ := Write.map_eq_ok_iff.1 hput.symm
  exact chain_put _

/-- The place of the layer that decides about a write: the first that claims the option. -/
def claimant (verdict : Nat → Value → Option String) (k : OptionKey) (v : Value)
    (c : Config Empty) : Option Slot :=
  c.chain.find? fun slot => (answer (c.storeAt verdict k v slot)).isSome

theorem store_eq (c : Config Empty) :
    c.store verdict k v = (c.claimant verdict k v).bind (c.storeAt verdict k v) := by
  simp only [store, claimant, Write.isSome_answer]
  induction c.chain with
  | nil => rfl
  | cons slot rest ih =>
    rw [List.findSome?_cons, List.find?_cons, ih]
    cases h : c.storeAt verdict k v slot with
    | none => rfl
    | some r => exact h.symm

theorem exists_claimant_of_store (h : c.store verdict k v = some (.ok c₁)) :
    ∃ slot ∈ c.chain, c.claimant verdict k v = some slot ∧
      c.storeAt verdict k v slot = some (.ok c₁) := by
  rw [store_eq] at h
  obtain ⟨slot, hclaim, hstore⟩ := Option.bind_eq_some_iff.1 h
  exact ⟨slot, List.mem_of_find?_eq_some hclaim, hclaim, hstore⟩

/-- What is stored for one option changes neither who decides about another nor the answer. -/
theorem claimant_of_store (hk : ¬ k.IsMark) (hk' : ¬ k'.IsMark) (hne : k'.id ≠ k.id)
    (h : c.store verdict k v = some (.ok c₁)) :
    c₁.claimant verdict k' v' = c.claimant verdict k' v' ∧ ∀ slot ∈ c.chain,
      answer (c₁.storeAt verdict k' v' slot) = answer (c.storeAt verdict k' v' slot) := by
  obtain ⟨slot, hslot, -, hstore⟩ := exists_claimant_of_store h
  have hanswer : ∀ slot' ∈ c.chain,
      answer (c₁.storeAt verdict k' v' slot') = answer (c.storeAt verdict k' v' slot') :=
    fun slot' hslot' => (apartAt_storeAt hk hk' hne hslot hslot').answered hstore
  refine ⟨?_, hanswer⟩
  rw [claimant, claimant, chain_of_storeAt hslot hstore]
  exact List.find?_congr fun slot' hslot' => congrArg Option.isSome (hanswer slot' hslot')

/-- Writes of two different options, neither of them about the water marks, are apart. -/
theorem apart_store (hk : ¬ k.IsMark) (hk' : ¬ k'.IsMark) (hne : k'.id ≠ k.id) :
    Apart (store verdict k v : Write (Config Empty)) (store verdict k' v') := by
  intro c
  refine ⟨?_, ?_⟩
  · intro c₁ h
    have hclaim : c₁.claimant verdict k' v' = c.claimant verdict k' v' :=
      (claimant_of_store hk hk' hne h).1
    rw [store_eq, store_eq, hclaim]
    cases hslot : c.claimant verdict k' v' with
    | none => rfl
    | some slot =>
      exact (claimant_of_store hk hk' hne h).2 slot (List.mem_of_find?_eq_some hslot)
  · intro c₁ c₂ d d' h₁ h₂ h h'
    obtain ⟨slot, hslot, hclaim, hstore⟩ := exists_claimant_of_store h₁
    obtain ⟨slot', hslot', hclaim', hstore'⟩ := exists_claimant_of_store h₂
    rw [store_eq, (claimant_of_store hk hk' hne h₁).1, hclaim'] at h
    rw [store_eq, (claimant_of_store hk' hk hne.symm h₂).1, hclaim] at h'
    exact (apartAt_storeAt hk hk' hne hslot hslot').swap hstore hstore' h h'

end Config

end FlowControl
