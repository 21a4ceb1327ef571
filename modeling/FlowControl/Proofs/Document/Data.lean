import FlowControl.Document.Data
import Mathlib.Data.List.Nodup

/-!
# The tables of a document

A table gives names to its fields, and lists them in some order that means nothing: a document may
come back with every table of it listed in another way (`Data.listedBy`), and looking for a name
finds the same (`Data.field?_perm`, `Data.field?_listed`).

A reader of records asks two things of the names in a table. `Record` says what they are,
`Record.Fits` that a table meets them, and `Record.Breaks` what it means to spoil a table that does,
by a field too many or by a field too few. Whatever order the fields are in then, the table fits no
longer (`Record.Breaks.not_fits`).

Tables stand in tables. A reader is strict about a record at some place in a document
(`Record.Strict`) if it gives up the whole document as soon as the table at this place is spoilt.
-/

set_option autoImplicit false

namespace FlowControl.Document

/-- A way of listing the fields of tables. -/
structure Listing where
  list : List (String × Data) → List (String × Data)
  perm : ∀ fields, (list fields).Perm fields

namespace Data

mutual

/-- The same data, with the fields of all tables listed in some way. -/
def listedBy (l : Listing) : Data → Data
  | .table fields => .table (l.list (fieldsListedBy l fields))
  | .list items => .list (itemsListedBy l items)
  | d => d

def fieldsListedBy (l : Listing) : List (String × Data) → List (String × Data)
  | [] => []
  | (name, d) :: rest => (name, d.listedBy l) :: fieldsListedBy l rest

def itemsListedBy (l : Listing) : List Data → List Data
  | [] => []
  | d :: rest => d.listedBy l :: itemsListedBy l rest

end

/-- The fields of the table that stands at a path of field names. -/
def tableAt? : List String → Data → Option (List (String × Data))
  | [], .table fields => some fields
  | name :: path, .table fields => (field? name fields).bind (tableAt? path)
  | _, _ => none

/-- The data with other fields in the table at a path. -/
def setTable (new : List (String × Data)) : List String → Data → Data
  | [], .table _ => .table new
  | name :: path, .table fields =>
    .table (fields.map fun f => (f.1, if f.1 = name then f.2.setTable new path else f.2))
  | _, d => d

/-! ## Look-ups -/

variable {name : String} {d : Data} {fields fields' : List (String × Data)}

theorem field?_eq_none_iff : field? name fields = none ↔ name ∉ fields.map (·.1) := by
  rw [field?, List.lookup_eq_none_iff, List.mem_map]
  constructor
  · rintro hnone ⟨f, hf, rfl⟩
    simpa using hnone f hf
  · intro hnot f hf
    have hne : name ≠ f.1 := fun heq => hnot ⟨f, hf, heq.symm⟩
    simpa using hne

theorem mem_of_field? (h : field? name fields = some d) : (name, d) ∈ fields := by
  obtain ⟨before, after, rfl, -⟩ := List.lookup_eq_some_iff.1 h
  exact List.mem_append_right _ List.mem_cons_self

theorem field?_eq_some_iff (hnames : (fields.map (·.1)).Nodup) :
    field? name fields = some d ↔ (name, d) ∈ fields := by
  refine ⟨mem_of_field?, fun hmem => ?_⟩
  cases hfound : field? name fields with
  | none => exact absurd (List.mem_map_of_mem hmem) (field?_eq_none_iff.1 hfound)
  | some d' =>
    have hsame := List.inj_on_of_nodup_map hnames (mem_of_field? hfound) hmem rfl
    exact congrArg (fun f => some f.2) hsame

/-- The order of the fields does not matter. -/
theorem field?_perm (hperm : fields'.Perm fields) (hnames : (fields.map (·.1)).Nodup)
    (name : String) : field? name fields' = field? name fields := by
  have hnames' : (fields'.map (·.1)).Nodup := (hperm.map _).nodup_iff.2 hnames
  ext d
  rw [field?_eq_some_iff hnames', field?_eq_some_iff hnames, hperm.mem_iff]

theorem field?_filter {other : String} (hname : name ≠ other)
    (fields : List (String × Data)) :
    field? name (fields.filter fun f => f.1 ≠ other) = field? name fields := by
  induction fields with
  | nil => rfl
  | cons f rest ih =>
    obtain ⟨name', d⟩ := f
    by_cases hother : name' = other
    · have hne : (name == name') = false := by simpa [hother] using hname
      rw [List.filter_cons_of_neg (by simpa using hother), ih]
      simp only [field?, List.lookup_cons, hne]
    · rw [List.filter_cons_of_pos (by simpa using hother)]
      simp only [field?, List.lookup_cons] at ih ⊢
      rw [ih]

/-- Where fields keep their names, the field of a name is found changed in its own way. -/
theorem field?_map (change : String → Data → Data) (fields : List (String × Data)) :
    field? name (fields.map fun f => (f.1, change f.1 f.2))
      = (field? name fields).map (change name) := by
  induction fields with
  | nil => rfl
  | cons f rest ih =>
    obtain ⟨name', d⟩ := f
    simp only [field?, List.map_cons, List.lookup_cons] at ih ⊢
    cases hname : name == name' with
    | true =>
      obtain rfl : name = name' := beq_iff_eq.1 hname
      rfl
    | false => exact ih

theorem fieldsListedBy_eq (l : Listing) (fields : List (String × Data)) :
    fieldsListedBy l fields = fields.map fun f => (f.1, f.2.listedBy l) := by
  induction fields with
  | nil => rfl
  | cons f rest ih => rw [fieldsListedBy, ih, List.map_cons]

theorem names_listed (l : Listing) (fields : List (String × Data)) :
    ((l.list (fieldsListedBy l fields)).map (·.1)).Perm (fields.map (·.1)) := by
  have hnames : (fieldsListedBy l fields).map (·.1) = fields.map (·.1) := by
    rw [fieldsListedBy_eq, List.map_map]
    rfl
  rw [← hnames]
  exact (l.perm _).map _

theorem mem_names_of_listed {l : Listing} {f : String × Data}
    (hf : f ∈ l.list (fieldsListedBy l fields)) : f.1 ∈ fields.map (·.1) :=
  (names_listed l fields).mem_iff.1 (List.mem_map_of_mem hf)

/-- In a table that is listed in another way, a field is found in the same way. -/
theorem field?_listed (l : Listing) (hnames : (fields.map (·.1)).Nodup) (name : String) :
    field? name (l.list (fieldsListedBy l fields)) = (field? name fields).map (·.listedBy l) := by
  have hlisted : ((fieldsListedBy l fields).map (·.1)).Nodup :=
    ((l.perm _).map _).nodup_iff.1 ((names_listed l fields).nodup_iff.2 hnames)
  rw [field?_perm (l.perm _) hlisted, fieldsListedBy_eq]
  exact field?_map (fun _ d => d.listedBy l) fields

theorem fields?_table_eq_some_iff {surplus : Surplus} {names : List String} :
    (Data.table fields).fields? surplus names = some fields'
      ↔ (∀ f ∈ fields, f.1 ∈ names) ∧ fields = fields' := by
  simp [fields?]

theorem setTable_eq_table (new : List (String × Data)) {path : List String}
    (h : d.tableAt? path = some fields) : ∃ all, d.setTable new path = .table all := by
  cases d with
  | table =>
    cases path with
    | nil | cons => exact ⟨_, rfl⟩
  | null | bool | int | real | moment | text | list =>
    cases path with
    | nil | cons => cases h

end Data

/-! ## Records -/

/-- The names that go with a kind of table. -/
structure Record where
  /-- The fields that the table may have. -/
  declared : List String
  /-- The fields that it must have. -/
  required : List String

namespace Record

def ofRequired (names : List String) : Record := ⟨names, names⟩

def ofOptional (names : List String) : Record := ⟨names, []⟩

variable {r : Record} {fields fields' : List (String × Data)}

/-- The table has the fields that it must have, and no other than it may have. -/
structure Fits (r : Record) (fields : List (String × Data)) : Prop where
  declared : ∀ f ∈ fields, f.1 ∈ r.declared
  required : ∀ name ∈ r.required, name ∈ fields.map (·.1)

/-- The fields `fields'` are `fields` with one more that the record does not have, or without one
that it must have. -/
inductive Breaks (r : Record) (fields fields' : List (String × Data)) : Prop
  | added (name : String) (d : Data) (hname : name ∉ r.declared)
    (hperm : fields'.Perm ((name, d) :: fields))
  | removed (name : String) (hname : name ∈ r.required)
    (hperm : fields'.Perm (fields.filter (·.1 ≠ name)))

theorem Breaks.not_fits (hb : r.Breaks fields fields') : ¬ r.Fits fields' := by
  intro hfits
  cases hb with
  | added name d hname hperm =>
    exact hname (hfits.declared (name, d) (hperm.mem_iff.2 List.mem_cons_self))
  | removed name hname hperm =>
    obtain ⟨f, hf, rfl⟩ := List.mem_map.1 (hfits.required name hname)
    have hne : f.1 ≠ f.1 := by simpa using (List.mem_filter.1 (hperm.mem_iff.1 hf)).2
    exact hne rfl

/-- The fields that are left are the same as before. -/
theorem Breaks.field? (hb : r.Breaks fields fields') (hnames : (fields.map (·.1)).Nodup)
    {name : String} (hname : name ∈ r.declared) {d : Data}
    (hd : Data.field? name fields' = some d) : Data.field? name fields = some d := by
  have hmem := Data.mem_of_field? hd
  rw [Data.field?_eq_some_iff hnames]
  cases hb with
  | added name' d' hname' hperm =>
    rcases List.mem_cons.1 (hperm.mem_iff.1 hmem) with heq | hmem
    · cases heq
      exact absurd hname hname'
    · exact hmem
  | removed name' hname' hperm => exact (List.mem_filter.1 (hperm.mem_iff.1 hmem)).1

/-- The data have the table of a record at the path, and are not read when it is spoilt. -/
def Strict {α : Type} (r : Record) (read : Data → Option α) (path : List String) (d : Data) :
    Prop :=
  ∃ fields, d.tableAt? path = some fields ∧ (fields.map (·.1)).Perm r.declared
    ∧ ∀ fields', r.Breaks fields fields' → read (d.setTable fields' path) = none

/-- A reader is strict about a table if it reads only what fits. -/
theorem strict_table {α : Type} {read : Data → Option α}
    (hnames : (fields.map (·.1)).Perm r.declared)
    (hfits : ∀ fields' a, r.Breaks fields fields' → read (.table fields') = some a →
      r.Fits fields') : r.Strict read [] (.table fields) := by
  refine ⟨fields, rfl, hnames, fun fields' hb => ?_⟩
  cases hread : read (.table fields') with
  | none => exact hread
  | some a => exact absurd (hfits fields' a hb hread) hb.not_fits

/-- Strictness about a field of a table is strictness about the table, for a reader that needs what
is in this field to be readable, if it is a table. -/
theorem Strict.field {α β : Type} {read : Data → Option α} {readAll : Data → Option β}
    {name : String} {path : List String} {d : Data} (hstrict : r.Strict read path d)
    (hfound : Data.field? name fields = some d)
    (hneeds : ∀ {all fields}, Data.field? name all = some (.table fields) →
      read (.table fields) = none → readAll (.table all) = none) :
    r.Strict readAll (name :: path) (.table fields) := by
  obtain ⟨old, htable, hnames, hspoilt⟩ := hstrict
  refine ⟨old, ?_, hnames, fun new hb => ?_⟩
  · rw [Data.tableAt?, hfound, Option.bind_some, htable]
  · have hchanged : Data.field? name (fields.map fun f =>
        (f.1, if f.1 = name then f.2.setTable new path else f.2)) = some (d.setTable new path) := by
      rw [Data.field?_map fun name' d => if name' = name then d.setTable new path else d, hfound,
        Option.map_some, if_pos rfl]
    obtain ⟨all, hall⟩ := Data.setTable_eq_table new htable
    rw [hall] at hchanged
    refine hneeds hchanged ?_
    rw [← hall]
    exact hspoilt new hb

end Record

end FlowControl.Document
