import FlowControl.Option.Key
import FlowControl.Option.Value

/-!
# The keys of one table

A key is a number, a name and a value type, but maps, layers and registries compare numbers alone.
That is enough because clients get their keys from the option table, and a table gives every number
to one key only (`OptionTable.serve_coherent`). The statements of later modules that need this speak
of a table that has served some requests, and of its keys (`OptionTable.Key`) and entries
(`OptionTable.Entry`), so that a key of one's own making is not among the things they talk about.
-/

set_option autoImplicit false

namespace FlowControl

namespace OptionTable

/-- What a client can ask of the table. -/
inductive Request (τ : Type := ValueType) where
  | valueOf (name : String) (type : τ)
  | newInstance (name : String) (type : τ)

def answer {τ : Type} [DecidableEq τ] [NamedType τ] (request : Request τ) (t : OptionTable τ) :
    Answer τ :=
  match request with
  | .valueOf name type => t.valueOf name type
  | .newInstance name type => t.newInstance name type

/-- The table after it has served requests. -/
def serve (requests : List Request) : OptionTable :=
  requests.foldl (fun t request => (t.answer request).table) initial

/-- A number belongs to one key, the next number to none, and the built-in options are there. -/
structure Coherent (t : OptionTable) : Prop where
  unique : ∀ k ∈ t.keys, ∀ k' ∈ t.keys, k.id = k'.id → k = k'
  below : ∀ k ∈ t.keys, k.id < t.nextId
  builtIn : ∀ k ∈ OptionKey.builtIns, k ∈ t.keys

/-- A key that the table has given out. -/
structure Key {τ : Type} (t : OptionTable τ) where
  key : OptionKey τ
  known : key ∈ t.keys

/-- A key that the table has given out, with a value of its type. -/
structure Entry (t : OptionTable) extends Key t where
  value : Value
  typed : value.type = key.type

theorem coherent_initial : initial.Coherent where
  unique := by decide
  below := by decide
  builtIn _ hk := hk

theorem Coherent.register {t : OptionTable} (ht : t.Coherent) (name : String) (type : ValueType) :
    (t.register name type).table.Coherent where
  unique k hk k' hk' hid := by
    simp only [OptionTable.register, List.mem_append, List.mem_singleton] at hk hk'
    -- The new key has the next number, which no earlier key has.
    rcases hk with hk | rfl <;> rcases hk' with hk' | rfl
    · exact ht.unique k hk k' hk' hid
    · exact absurd hid (Nat.ne_of_lt (ht.below k hk))
    · exact absurd hid.symm (Nat.ne_of_lt (ht.below k' hk'))
    · rfl
  below k hk := by
    simp only [OptionTable.register, List.mem_append, List.mem_singleton] at hk ⊢
    rcases hk with hk | rfl
    · exact Nat.lt_succ_of_lt (ht.below k hk)
    · exact Nat.lt_succ_self t.nextId
  builtIn k hk := List.mem_append_left _ (ht.builtIn k hk)

theorem Coherent.answer {t : OptionTable} (ht : t.Coherent) (request : Request) :
    (t.answer request).table.Coherent := by
  cases request with
  | valueOf name type =>
    simp only [OptionTable.answer, valueOf]
    cases t.find? name with
    | none => exact ht.register name type
    | some k =>
      dsimp only
      split
      · exact ht
      · exact ht
  | newInstance name type =>
    simp only [OptionTable.answer, newInstance]
    split
    · exact ht
    · exact ht.register name type

/-- Whatever has been asked of it, a table gives every number to one key only. -/
theorem serve_coherent (requests : List Request) : (serve requests).Coherent := by
  have hfold : ∀ (rs : List Request) (t : OptionTable), t.Coherent →
      (rs.foldl (fun t request => (t.answer request).table) t).Coherent := by
    intro rs
    induction rs with
    | nil => exact fun _ ht => ht
    | cons request rest ih => exact fun t ht => ih _ (ht.answer request)
  exact hfold requests initial coherent_initial

end OptionTable

end FlowControl
