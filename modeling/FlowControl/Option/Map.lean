import FlowControl.Option.Key

/-!
# Option maps

A batch of options, or a snapshot of them: a finite map from options to values, which lists its
entries by option number. A map may hold a value of another type than its option's; reading it as a
value of the option then finds nothing.

As with keys, the types and the values may be those of any collection.

What an operation does is said through `find?`: see `find?_insert` and `find?_erase`.
-/

set_option autoImplicit false

namespace FlowControl

/-- A finite map from options to values, in the order of the option numbers. -/
structure OptionMap (τ : Type := ValueType) (ν : Type := Value) where
  entries : List (OptionKey τ × ν)
deriving DecidableEq

namespace OptionMap

variable {τ ν : Type}

def empty : OptionMap τ ν := ⟨[]⟩

instance : Inhabited (OptionMap τ ν) := ⟨empty⟩

/-- The value stored for an option, of whatever type it is. -/
def find? (k : OptionKey τ) (m : OptionMap τ ν) : Option ν :=
  (m.entries.find? fun e => e.1.same k).map (·.2)

/-- The value stored for an option, if it is of the option's type. -/
def get? [DecidableEq τ] [TypedValue ν τ] (k : OptionKey τ) (m : OptionMap τ ν) : Option ν :=
  (m.find? k).filter fun v => TypedValue.type v = k.type

def contains (k : OptionKey τ) (m : OptionMap τ ν) : Bool := (m.find? k).isSome

def size (m : OptionMap τ ν) : Nat := m.entries.length

def isEmpty (m : OptionMap τ ν) : Bool := m.entries.isEmpty

/-- The options of the map, by number. -/
def keys (m : OptionMap τ ν) : List (OptionKey τ) := m.entries.map (·.1)

/-- Put an entry at its place, or give the entry that is there another value. -/
def insertEntry (k : OptionKey τ) (v : ν) : List (OptionKey τ × ν) → List (OptionKey τ × ν)
  | [] => [(k, v)]
  | e :: rest =>
    if k.id < e.1.id then (k, v) :: e :: rest
    else if e.1.id < k.id then e :: insertEntry k v rest
    else (e.1, v) :: rest

def insert (k : OptionKey τ) (v : ν) (m : OptionMap τ ν) : OptionMap τ ν :=
  ⟨insertEntry k v m.entries⟩

def erase (k : OptionKey τ) (m : OptionMap τ ν) : OptionMap τ ν :=
  ⟨m.entries.filter fun e => !e.1.same k⟩

/-- Insert an entry, and tell which value the option had. -/
def replace (k : OptionKey τ) (v : ν) (m : OptionMap τ ν) : Option ν × OptionMap τ ν :=
  (m.find? k, m.insert k v)

/-- Erase an entry, and tell which value the option had. -/
def take (k : OptionKey τ) (m : OptionMap τ ν) : Option ν × OptionMap τ ν :=
  (m.find? k, m.erase k)

/-- The map with further entries stored, one after the other. -/
def extend (entries : List (OptionKey τ × ν)) (m : OptionMap τ ν) : OptionMap τ ν :=
  entries.foldl (fun m e => m.insert e.1 e.2) m

/-- The map that results from storing entries one after the other. -/
def ofList (entries : List (OptionKey τ × ν)) : OptionMap τ ν := empty.extend entries

def describe (m : OptionMap) : String :=
  Text.record "OptionMap"
    [("entries", Text.mapping (m.entries.map fun e => (e.1.name, e.2.describe)))]

/-! ## What the operations do -/

@[simp] theorem find?_empty (k : OptionKey τ) : (empty : OptionMap τ ν).find? k = none := rfl

theorem find?_insert (k k' : OptionKey τ) (v : ν) (m : OptionMap τ ν) :
    (m.insert k v).find? k' = if k.id = k'.id then some v else m.find? k' := by
  obtain ⟨es⟩ := m
  simp only [insert, find?, OptionKey.same]
  induction es with
  | nil => by_cases h : k.id = k'.id <;> simp [insertEntry, h]
  | cons e rest ih =>
    unfold insertEntry
    split
    · by_cases h : k.id = k'.id <;> simp [h]
    · split
      · rename_i h₁ h₂
        by_cases he : e.1.id = k'.id
        · have : k.id ≠ k'.id := by omega
          simp [he, this]
        · simp only [List.find?_cons, beq_eq_false_iff_ne.2 he]
          simpa using ih
      · rename_i h₁ h₂
        have hid : e.1.id = k.id := by omega
        by_cases h : k.id = k'.id
        · simp [hid, h]
        · have : e.1.id ≠ k'.id := hid ▸ h
          simp [h, beq_eq_false_iff_ne.2 this]

theorem find?_erase (k k' : OptionKey τ) (m : OptionMap τ ν) :
    (m.erase k).find? k' = if k.id = k'.id then none else m.find? k' := by
  obtain ⟨es⟩ := m
  simp only [erase, find?, OptionKey.same]
  induction es with
  | nil => simp
  | cons e rest ih =>
    by_cases he : e.1.id = k.id
    · simp only [List.filter_cons, he, beq_self_eq_true, Bool.not_true, Bool.false_eq_true,
        if_false, ih]
      by_cases h : k.id = k'.id
      · simp [h]
      · have : e.1.id ≠ k'.id := he ▸ h
        simp [h, beq_eq_false_iff_ne.2 this]
    · simp only [List.filter_cons, beq_eq_false_iff_ne.2 he, Bool.not_false, if_true]
      by_cases h : e.1.id = k'.id
      · have : k.id ≠ k'.id := fun h' => he (h.trans h'.symm)
        simp [h, this]
      · simp only [List.find?_cons, beq_eq_false_iff_ne.2 h]
        exact ih

end OptionMap

end FlowControl
