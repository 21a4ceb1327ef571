import FlowControl.Registry
import FlowControl.Proofs.Option.Table

/-!
# What a registry holds

Two operations change a registry: an option is declared, or a value is stored for one that is
declared. This file says what they do to a look-up, and which invariant they keep: no option is
declared twice, keys are those of one table, and every value has the type of its option and has been
accepted by the hook that now guards it (`Registry.Sound`).

What it means that a hook accepts a value is a parameter. Where hooks have a fixed verdict it is
that verdict; where nothing is known of them it may be no condition at all.
-/

set_option autoImplicit false

namespace FlowControl

/-- What hooks accept that have a fixed verdict on every value. -/
def Accepts (verdict : Nat → Value → Option String) (hook : Nat) (v : Value) : Prop :=
  verdict hook v = none

theorem OptionKey.same_iff {k k' : OptionKey} : k.same k' = true ↔ k.id = k'.id := by
  simp only [same, beq_iff_eq]

namespace Registry

/-! ## Look-ups -/

theorem find?_store (k k' : OptionKey) (v : Value) (r : Registry) :
    (r.store k v).find? k' =
      (r.find? k').map fun d => if d.key.same k then { d with value := v } else d := by
  have hkey : (fun d : Declared => d.key.same k') ∘
      (fun d : Declared => if d.key.same k then { d with value := v } else d) =
        fun d => d.key.same k' := by
    funext d
    simp only [Function.comp_apply]
    split <;> rfl
  rw [find?, store, List.find?_map, hkey, find?]

theorem same_of_find? {k : OptionKey} {d : Declared} {r : Registry} (h : r.find? k = some d) :
    d.key.same k = true := by
  unfold find? at h
  simpa using List.find?_some h

theorem find?_put (d : Declared) (k : OptionKey) (r : Registry) :
    (r.put d).find? k = if d.key.same k then some d else r.find? k := by
  obtain ⟨ds⟩ := r
  simp only [put, find?]
  induction ds with
  | nil => cases hd : d.key.same k <;> simp [putDeclared, hd]
  | cons d' rest ih =>
    simp only [putDeclared]
    by_cases hd : d'.key.same d.key
    · -- The declaration takes the place of one that a look-up would not tell from it.
      have hk : d'.key.same k = d.key.same k := by
        simp only [OptionKey.same, OptionKey.same_iff.1 hd]
      rw [if_pos hd, List.find?_cons, List.find?_cons, hk]
      cases d.key.same k <;> rfl
    · rw [if_neg hd, List.find?_cons, List.find?_cons, ih]
      by_cases hk : d'.key.same k = true
      · have hne : ¬ d.key.same k = true := by
          rw [OptionKey.same_iff] at hd hk ⊢
          exact fun h => hd (hk.trans h.symm)
        simp only [hk, if_neg hne]
      · rw [Bool.not_eq_true] at hk
        simp only [hk]

theorem value?_eq_none_iff {k : OptionKey} {r : Registry} :
    r.value? k = none ↔ ¬ r.contains k := by
  rw [value?, Option.map_eq_none_iff, contains, Option.not_isSome_iff_eq_none]

/-- A value that is stored for a declared option is found there, under the hook as it was. -/
theorem find?_store_self {k : OptionKey} {v : Value} {r : Registry} {d : Declared}
    (h : r.find? k = some d) : (r.store k v).find? k = some { d with value := v } := by
  rw [find?_store, h, Option.map_some, if_pos (same_of_find? h)]

/-- All other options are left alone. -/
theorem find?_store_other {k k' : OptionKey} (v : Value) (r : Registry) (hne : k'.id ≠ k.id) :
    (r.store k v).find? k' = r.find? k' := by
  rw [find?_store]
  cases hd : r.find? k' with
  | none => rfl
  | some d =>
    have hid : d.key.id = k'.id := OptionKey.same_iff.1 (same_of_find? hd)
    have hother : ¬ d.key.same k = true := by
      rw [OptionKey.same_iff, hid]
      exact hne
    rw [Option.map_some, if_neg hother]

theorem value?_store_self {k : OptionKey} {v : Value} {r : Registry} {d : Declared}
    (h : r.find? k = some d) : (r.store k v).value? k = some v := by
  rw [value?, find?_store_self h]
  rfl

theorem value?_store_other {k k' : OptionKey} (v : Value) (r : Registry) (hne : k'.id ≠ k.id) :
    (r.store k v).value? k' = r.value? k' := by
  rw [value?, find?_store_other v r hne, value?]

/-- Nothing is ever undeclared. -/
theorem contains_put {k : OptionKey} {r : Registry} (h : r.contains k) (d : Declared) :
    (r.put d).contains k := by
  rw [contains, find?_put]
  split
  · rfl
  · exact h

theorem contains_store {k : OptionKey} {r : Registry} (h : r.contains k) (k' : OptionKey)
    (v : Value) : (r.store k' v).contains k := by
  rw [contains, find?_store, Option.isSome_map]
  exact h

/-! ## The invariant -/

variable {t : OptionTable} {accepts : Nat → Value → Prop}

structure Sound (t : OptionTable) (accepts : Nat → Value → Prop) (r : Registry) : Prop where
  distinct : r.declared.Pairwise fun d d' => d.key.id ≠ d'.key.id
  known : ∀ d ∈ r.declared, d.key ∈ t.keys
  typed : ∀ d ∈ r.declared, d.value.type = d.key.type
  accepted : ∀ d ∈ r.declared, ∀ n ∈ d.hook, accepts n d.value

/-- What one operation does to a registry, if it does anything: an option is declared with a value
that its hook accepts, or a declared option gets a value that the hook in force accepts. -/
inductive Change (t : OptionTable) (accepts : Nat → Value → Prop) (r : Registry) :
    Registry → Prop where
  | declare (e : t.Entry) (hook : Option Nat) : (∀ n ∈ hook, accepts n e.value) →
    Change t accepts r (r.put ⟨e.key, e.value, hook⟩)
  | store (e : t.Entry) (d : Declared) : r.find? e.key = some d →
    (∀ n ∈ d.hook, accepts n e.value) → Change t accepts r (r.store e.key e.value)

/-- The registries that operations lead to. -/
inductive Reached (t : OptionTable) (accepts : Nat → Value → Prop) : Registry → Prop where
  | empty : Reached t accepts .empty
  | change {r r' : Registry} : Reached t accepts r → Change t accepts r r' → Reached t accepts r'

theorem mem_putDeclared {d d' : Declared} {ds : List Declared} (h : d' ∈ putDeclared d ds) :
    d' = d ∨ d' ∈ ds := by
  induction ds with
  | nil => exact .inl (List.mem_singleton.1 h)
  | cons d₁ rest ih =>
    simp only [putDeclared] at h
    split at h
    · rcases List.mem_cons.1 h with rfl | h
      · exact .inl rfl
      · exact .inr (List.mem_cons_of_mem _ h)
    · rcases List.mem_cons.1 h with rfl | h
      · exact .inr List.mem_cons_self
      · exact (ih h).imp_right (List.mem_cons_of_mem _)

theorem pairwise_putDeclared (d : Declared) {ds : List Declared}
    (h : ds.Pairwise fun d d' => d.key.id ≠ d'.key.id) :
    (putDeclared d ds).Pairwise fun d d' => d.key.id ≠ d'.key.id := by
  induction ds with
  | nil => exact List.pairwise_singleton _ d
  | cons d₁ rest ih =>
    obtain ⟨hfirst, hrest⟩ := List.pairwise_cons.1 h
    simp only [putDeclared]
    split
    · rename_i hsame
      refine List.pairwise_cons.2 ⟨?_, hrest⟩
      intro d' hd'
      rw [← OptionKey.same_iff.1 hsame]
      exact hfirst d' hd'
    · rename_i hother
      refine List.pairwise_cons.2 ⟨?_, ih hrest⟩
      intro d' hd'
      rcases mem_putDeclared hd' with rfl | hd'
      · exact fun hid => hother (OptionKey.same_iff.2 hid)
      · exact hfirst d' hd'

theorem Sound.empty : Sound t accepts .empty where
  distinct := .nil
  known _ hd := by cases hd
  typed _ hd := by cases hd
  accepted _ hd := by cases hd

theorem Sound.put {r : Registry} (hr : r.Sound t accepts) (e : t.Entry) {hook : Option Nat}
    (hhook : ∀ n ∈ hook, accepts n e.value) : (r.put ⟨e.key, e.value, hook⟩).Sound t accepts where
  distinct := pairwise_putDeclared _ hr.distinct
  known d hd := by
    rcases mem_putDeclared hd with rfl | hd
    · exact e.known
    · exact hr.known d hd
  typed d hd := by
    rcases mem_putDeclared hd with rfl | hd
    · exact e.typed
    · exact hr.typed d hd
  accepted d hd := by
    rcases mem_putDeclared hd with rfl | hd
    · exact hhook
    · exact hr.accepted d hd

/-- In a sound registry, the declaration that a look-up finds is the only one of its number. -/
theorem Sound.find?_eq {r : Registry} (hr : r.Sound t accepts) {d : Declared}
    (hd : d ∈ r.declared) {k : OptionKey} (hk : d.key.id = k.id) : r.find? k = some d := by
  obtain ⟨ds⟩ := r
  obtain ⟨hdistinct, -, -, -⟩ := hr
  simp only [find?]
  induction ds with
  | nil => cases hd
  | cons d₁ rest ih =>
    obtain ⟨hfirst, hrest⟩ := List.pairwise_cons.1 hdistinct
    rcases List.mem_cons.1 hd with rfl | hd
    · rw [List.find?_cons, OptionKey.same_iff.2 hk]
    · have hne : d₁.key.same k = false := by
        rw [← Bool.not_eq_true, OptionKey.same_iff, ← hk]
        exact hfirst d hd
      rw [List.find?_cons, hne]
      exact ih hd hrest

theorem Sound.store {r : Registry} (ht : t.Coherent) (hr : r.Sound t accepts) (e : t.Entry)
    {d : Declared} (hd : r.find? e.key = some d) (hhook : ∀ n ∈ d.hook, accepts n e.value) :
    (r.store e.key e.value).Sound t accepts where
  distinct := by
    refine List.pairwise_map.2 (hr.distinct.imp ?_)
    intro d₁ d₂ hne
    split <;> split <;> exact hne
  known d' hd' := by
    obtain ⟨d₁, hmem, rfl⟩ := List.mem_map.1 hd'
    split <;> exact hr.known d₁ hmem
  typed d' hd' := by
    obtain ⟨d₁, hmem, rfl⟩ := List.mem_map.1 hd'
    split
    · rename_i hsame
      rw [ht.unique d₁.key (hr.known d₁ hmem) e.key e.known (OptionKey.same_iff.1 hsame)]
      exact e.typed
    · exact hr.typed d₁ hmem
  accepted d' hd' := by
    obtain ⟨d₁, hmem, rfl⟩ := List.mem_map.1 hd'
    split
    · rename_i hsame
      -- The declaration that is written is the one that was looked up.
      rw [hr.find?_eq hmem (OptionKey.same_iff.1 hsame)] at hd
      cases hd
      exact hhook
    · exact hr.accepted d₁ hmem

theorem Change.sound (ht : t.Coherent) {r r' : Registry} (h : Change t accepts r r')
    (hr : r.Sound t accepts) : r'.Sound t accepts := by
  cases h with
  | declare e hook hhook => exact hr.put e hhook
  | store e d hd hhook => exact hr.store ht e hd hhook

theorem Reached.sound (ht : t.Coherent) {r : Registry} (h : Reached t accepts r) :
    r.Sound t accepts := by
  induction h with
  | empty => exact .empty
  | change _ hchange ih => exact hchange.sound ht ih

end Registry

end FlowControl
