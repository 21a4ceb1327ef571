import FlowControl.Proofs.Option.Table
import Mathlib.Data.List.Pairwise

/-!
# What identifies an option

Maps, layers and registries recognise an option by the number of its key, clients by its name, and
typed access relies on a name having one type. The table keeps the three together: it only grows,
and it grows by exactly one key for every name that is asked for and not there, whichever of the two
ways of asking is used. So the whole table can be read off the requests (`serveIn_eq`), and that
requests may fail in between makes no difference to it.

Everything here is about any collection `τ` of value types that has the built-in options' types
among it (`own`), since clients register options with types of their own.
-/

set_option autoImplicit false

namespace FlowControl

/-- The same option, its type taken for one of another collection. -/
def OptionKey.retype {σ τ : Type} (f : σ → τ) (k : OptionKey σ) : OptionKey τ :=
  ⟨k.id, k.name, f k.type⟩

namespace OptionTable

open NamedType (fullName)

variable {τ : Type}

/-- The name a request is about. -/
def Request.name : Request τ → String
  | .valueOf name _ => name
  | .newInstance name _ => name

/-- The type a request wants the option to have. -/
def Request.type : Request τ → τ
  | .valueOf _ type => type
  | .newInstance _ type => type

/-- The names of the options known so far. -/
def names (t : OptionTable τ) : List String := t.keys.map (·.name)

def builtInNames : List String := OptionKey.builtIns.map (·.name)

/-- The table at the beginning, where the types are any that include the program's `own`. -/
def initialIn (own : ValueType → τ) : OptionTable τ :=
  ⟨OptionKey.builtIns.map (·.retype own), firstFreeId⟩

/-- The requests that are the first to use their name, when some names are taken already. -/
def firstUses (taken : List String) : List (Request τ) → List (Request τ)
  | [] => []
  | request :: rest =>
    if request.name ∈ taken then firstUses taken rest
    else request :: firstUses (taken ++ [request.name]) rest

/-- The keys of the options that requests register, numbered one after the other. -/
def numbered (first : Nat) (uses : List (Request τ)) : List (OptionKey τ) :=
  uses.mapIdx fun i request => ⟨first + i, request.name, request.type⟩

variable [DecidableEq τ] [NamedType τ]

/-- The table after it has served requests. -/
def serveFrom (t : OptionTable τ) (requests : List (Request τ)) : OptionTable τ :=
  requests.foldl (fun t request => (t.answer request).table) t

/-- The table after it has served requests since the beginning. -/
def serveIn (own : ValueType → τ) (requests : List (Request τ)) : OptionTable τ :=
  (initialIn own).serveFrom requests

/-- The keys that requests are answered with. -/
def given (t : OptionTable τ) : List (Request τ) → List (OptionKey τ)
  | [] => []
  | request :: rest =>
    (t.answer request).key.toOption.toList ++ (t.answer request).table.given rest

/-- For the program's own types this is the table that serves everyone. -/
theorem serveIn_id (requests : List Request) : serveIn id requests = serve requests := rfl

/-! ## One request -/

omit [DecidableEq τ] [NamedType τ] in
theorem find?_eq_none_iff {t : OptionTable τ} {name : String} :
    t.find? name = none ↔ name ∉ t.names := by
  simp [find?, names]

omit [DecidableEq τ] [NamedType τ] in
theorem mem_of_find? {t : OptionTable τ} {name : String} {k : OptionKey τ}
    (h : t.find? name = some k) : k ∈ t.keys ∧ k.name = name :=
  ⟨List.mem_of_find?_eq_some h, by simpa using List.find?_some h⟩

/-- What an answer can be. A name that is not there is registered whatever is asked, and a name that
is there only ever gives its key or a refusal. -/
inductive Answers (t : OptionTable τ) : Request τ → Answer τ → Prop
  | registered {request : Request τ} (hnew : t.find? request.name = none) :
    Answers t request (t.register request.name request.type)
  | found {name : String} {k : OptionKey τ} (hk : t.find? name = some k) :
    Answers t (.valueOf name k.type) ⟨.ok k, t, []⟩
  | mistyped {name : String} {k : OptionKey τ} {type : τ} (hk : t.find? name = some k)
    (hne : k.type ≠ type) : Answers t (.valueOf name type)
      ⟨.error (.typeMismatch name (fullName k.type) (fullName type)), t, []⟩
  | taken {name : String} {k : OptionKey τ} {type : τ} (hk : t.find? name = some k) :
    Answers t (.newInstance name type) ⟨.error (.nameConflict name), t, []⟩

theorem answers (t : OptionTable τ) (request : Request τ) :
    Answers t request (t.answer request) := by
  cases request with
  | valueOf name type =>
    cases hk : t.find? name with
    | none =>
      have hanswer : t.answer (.valueOf name type) = t.register name type := by
        simp only [answer, valueOf, hk]
      rw [hanswer]
      exact .registered hk
    | some k =>
      by_cases htype : k.type = type
      · subst htype
        have hanswer : t.answer (.valueOf name k.type) = ⟨.ok k, t, []⟩ := by
          simp only [answer, valueOf, hk, if_true]
        rw [hanswer]
        exact .found hk
      · have hanswer : t.answer (.valueOf name type)
            = ⟨.error (.typeMismatch name (fullName k.type) (fullName type)), t, []⟩ := by
          simp only [answer, valueOf, hk, if_neg htype]
        rw [hanswer]
        exact .mistyped hk htype
  | newInstance name type =>
    cases hk : t.find? name with
    | none =>
      have hanswer : t.answer (.newInstance name type) = t.register name type := by
        simp [answer, newInstance, contains, hk]
      rw [hanswer]
      exact .registered hk
    | some k =>
      have hanswer : t.answer (.newInstance name type) = ⟨.error (.nameConflict name), t, []⟩ := by
        simp [answer, newInstance, contains, hk]
      rw [hanswer]
      exact .taken hk

namespace Answers

variable {t : OptionTable τ} {request : Request τ} {out : Answer τ}

omit [DecidableEq τ] in
theorem table_of_mem (h : Answers t request out) (hname : request.name ∈ t.names) :
    out.table = t := by
  cases h with
  | registered hnew => exact absurd hname (find?_eq_none_iff.1 hnew)
  | found | mistyped | taken => rfl

omit [DecidableEq τ] in
theorem table_of_not_mem (h : Answers t request out) (hname : request.name ∉ t.names) :
    out.table = (t.register request.name request.type).table := by
  have hnew : t.find? request.name = none := find?_eq_none_iff.2 hname
  cases h with
  | registered => rfl
  | found hk | mistyped hk | taken hk =>
    rw [Request.name, hk] at hnew
    cases hnew

omit [DecidableEq τ] in
theorem table_of_error (h : Answers t request out) {e : ConfigError} (he : out.key = .error e) :
    out.table = t := by
  cases h with
  | registered => cases he
  | found | mistyped | taken => rfl

omit [DecidableEq τ] in
theorem find?_of_ok (h : Answers t request out) {k : OptionKey τ} (hk : out.key = .ok k) :
    out.table.find? request.name = some k ∧ k.type = request.type := by
  cases h with
  | registered hnew =>
    cases hk
    refine ⟨?_, rfl⟩
    rw [find?] at hnew
    simp [register, find?, List.find?_append, hnew]
  | found hfound =>
    cases hk
    exact ⟨hfound, rfl⟩
  | mistyped | taken => cases hk

end Answers

/-! ## The table as a function of the requests -/

/-- Every name that is new gets the next number, and nothing else happens to the table. -/
theorem serveFrom_eq (requests : List (Request τ)) (t : OptionTable τ) :
    t.serveFrom requests
      = ⟨t.keys ++ numbered t.nextId (firstUses t.names requests),
        t.nextId + (firstUses t.names requests).length⟩ := by
  induction requests generalizing t with
  | nil => simp [serveFrom, firstUses, numbered]
  | cons request rest ih =>
    have hserve : t.serveFrom (request :: rest) = (t.answer request).table.serveFrom rest := rfl
    by_cases hname : request.name ∈ t.names
    · rw [hserve, (answers t request).table_of_mem hname, ih, firstUses, if_pos hname]
    · have hnames : (t.register request.name request.type).table.names
          = t.names ++ [request.name] := by
        simp [register, names]
      rw [hserve, (answers t request).table_of_not_mem hname, ih, hnames, firstUses, if_neg hname]
      simp [register, numbered, List.mapIdx_cons, Nat.add_assoc, Nat.add_comm 1]

theorem serveIn_eq (own : ValueType → τ) (requests : List (Request τ)) :
    serveIn own requests
      = ⟨OptionKey.builtIns.map (·.retype own)
          ++ numbered firstFreeId (firstUses builtInNames requests),
        firstFreeId + (firstUses builtInNames requests).length⟩ :=
  serveFrom_eq requests (initialIn own)

/-- Two refusals and a name asked for again leave no gap. -/
example : ((serve [.valueOf "DEPTH" .u32, .newInstance "DEPTH" .u32, .valueOf "AUTO_READ" .i32,
      .valueOf "DEPTH" .u32, .newInstance "LABEL" .string]).keys.drop 15)
    = [⟨1024, "DEPTH", .u32⟩, ⟨1025, "LABEL", .string⟩] := by decide

theorem serveFrom_append (t : OptionTable τ) (before after : List (Request τ)) :
    t.serveFrom (before ++ after) = (t.serveFrom before).serveFrom after :=
  List.foldl_append

/-- Serving further requests only adds keys. -/
theorem mem_serveFrom {t : OptionTable τ} {k : OptionKey τ} (hk : k ∈ t.keys)
    (requests : List (Request τ)) : k ∈ (t.serveFrom requests).keys := by
  rw [serveFrom_eq]
  exact List.mem_append_left _ hk

/-- A name keeps its key, and with it its number and its type. -/
theorem find?_serveFrom {t : OptionTable τ} {name : String} {k : OptionKey τ}
    (hk : t.find? name = some k) (requests : List (Request τ)) :
    (t.serveFrom requests).find? name = some k := by
  rw [find?] at hk
  rw [serveFrom_eq, find?, List.find?_append, hk, Option.some_or]

omit [DecidableEq τ] [NamedType τ] in
/-- The names in use are those that were taken and those that were asked for. -/
theorem mem_names_uses {taken : List String} {requests : List (Request τ)} {name : String} :
    name ∈ taken ++ (firstUses taken requests).map (·.name)
      ↔ name ∈ taken ∨ ∃ request ∈ requests, request.name = name := by
  induction requests generalizing taken with
  | nil => simp [firstUses]
  | cons request rest ih =>
    by_cases hname : request.name ∈ taken
    · rw [firstUses, if_pos hname, ih]
      constructor
      · rintro (h | ⟨r, hr, rfl⟩)
        · exact .inl h
        · exact .inr ⟨r, List.mem_cons_of_mem _ hr, rfl⟩
      · rintro (h | ⟨r, hr, rfl⟩)
        · exact .inl h
        · rcases List.mem_cons.1 hr with rfl | hr
          · exact .inl hname
          · exact .inr ⟨r, hr, rfl⟩
    · have hrest := @ih (taken ++ [request.name])
      rw [firstUses, if_neg hname, List.map_cons, List.append_cons, hrest]
      simp [or_assoc, eq_comm]

omit [DecidableEq τ] [NamedType τ] in
theorem map_name_numbered (first : Nat) (uses : List (Request τ)) :
    (numbered first uses).map (·.name) = uses.map (·.name) := by
  induction uses generalizing first with
  | nil => rfl
  | cons use rest ih =>
    have hrest := ih (first + 1)
    simpa [numbered, List.mapIdx_cons, Nat.add_assoc, Nat.add_comm 1] using hrest

/-- A name is unknown as long as it is no built-in option's and nobody has asked for it. -/
theorem find?_serveIn_eq_none_iff {own : ValueType → τ} {requests : List (Request τ)}
    {name : String} : (serveIn own requests).find? name = none
      ↔ name ∉ builtInNames ∧ ∀ request ∈ requests, request.name ≠ name := by
  have hnames : (serveIn own requests).names = builtInNames
      ++ (firstUses builtInNames requests).map (·.name) := by
    simp only [serveIn_eq, names, List.map_append, map_name_numbered, List.map_map]
    rfl
  rw [find?_eq_none_iff, hnames, mem_names_uses]
  simp only [not_or, not_exists, not_and, ne_eq]

/-! ## One number, one name -/

/-- Any two keys of the table differ both in number and in name, and the next number is free. -/
structure Distinct (t : OptionTable τ) : Prop where
  apart : t.keys.Pairwise fun k k' => k.id ≠ k'.id ∧ k.name ≠ k'.name
  below : ∀ k ∈ t.keys, k.id < t.nextId

omit [DecidableEq τ] [NamedType τ] in
theorem distinct_initialIn (own : ValueType → τ) : (initialIn own).Distinct where
  apart := by
    have hbuiltIns : OptionKey.builtIns.Pairwise fun k k' => k.id ≠ k'.id ∧ k.name ≠ k'.name := by
      decide
    exact List.pairwise_map.2 hbuiltIns
  below k hk := by
    obtain ⟨k₀, hk₀, rfl⟩ := List.mem_map.1 hk
    exact (coherent_initial.below k₀ hk₀ :)

omit [DecidableEq τ] [NamedType τ] in
theorem Distinct.register {t : OptionTable τ} (ht : t.Distinct) {name : String}
    (hnew : t.find? name = none) (type : τ) : (t.register name type).table.Distinct where
  apart := by
    refine List.pairwise_append.2 ⟨ht.apart, List.pairwise_singleton _ _, ?_⟩
    intro k hk k' hk'
    obtain rfl := List.mem_singleton.1 hk'
    refine ⟨Nat.ne_of_lt (ht.below k hk), ?_⟩
    rintro rfl
    exact find?_eq_none_iff.1 hnew (List.mem_map_of_mem hk)
  below k hk := by
    rcases List.mem_append.1 hk with hk | hk
    · exact Nat.lt_succ_of_lt (ht.below k hk)
    · obtain rfl := List.mem_singleton.1 hk
      exact Nat.lt_succ_self t.nextId

theorem Distinct.answer {t : OptionTable τ} (ht : t.Distinct) (request : Request τ) :
    (t.answer request).table.Distinct := by
  have hanswers := answers t request
  generalize t.answer request = out at hanswers
  cases hanswers with
  | registered hnew => exact ht.register hnew request.type
  | found | mistyped | taken => exact ht

theorem Distinct.serveFrom {t : OptionTable τ} (ht : t.Distinct) (requests : List (Request τ)) :
    (t.serveFrom requests).Distinct := by
  induction requests generalizing t with
  | nil => exact ht
  | cons request rest ih => exact ih (ht.answer request)

omit [DecidableEq τ] [NamedType τ] in
theorem Distinct.apart_of_ne {t : OptionTable τ} (ht : t.Distinct) {k k' : OptionKey τ}
    (hk : k ∈ t.keys) (hk' : k' ∈ t.keys) (hne : k ≠ k') : k.id ≠ k'.id ∧ k.name ≠ k'.name := by
  have : Std.Symm fun k k' : OptionKey τ => k.id ≠ k'.id ∧ k.name ≠ k'.name :=
    ⟨fun _ _ h => ⟨h.1.symm, h.2.symm⟩⟩
  exact ht.apart.forall hk hk' hne

omit [DecidableEq τ] [NamedType τ] in
/-- Comparing keys is comparing names. -/
theorem Distinct.same_iff {t : OptionTable τ} (ht : t.Distinct) {k k' : OptionKey τ}
    (hk : k ∈ t.keys) (hk' : k' ∈ t.keys) : k.same k' = true ↔ k.name = k'.name := by
  rw [OptionKey.same, beq_iff_eq]
  by_cases heq : k = k'
  · simp [heq]
  · simp [ht.apart_of_ne hk hk' heq]

/-- What was given out is in the table, then and later. -/
theorem mem_serveFrom_of_given {t : OptionTable τ} {requests : List (Request τ)} {k : OptionKey τ}
    (hk : k ∈ t.given requests) : k ∈ (t.serveFrom requests).keys := by
  induction requests generalizing t with
  | nil => cases hk
  | cons request rest ih =>
    rw [given, List.mem_append] at hk
    rcases hk with hk | hk
    · cases hkey : (t.answer request).key with
      | error e =>
        rw [hkey] at hk
        cases hk
      | ok k' =>
        rw [hkey] at hk
        obtain rfl : k = k' := by simpa [Except.toOption] using hk
        have hfound := ((answers t request).find?_of_ok hkey).1
        exact mem_serveFrom (mem_of_find? hfound).1 rest
    · exact ih hk

/-! ## The outcome of a request -/

theorem newInstance_eq_ok_iff {t : OptionTable τ} {name : String} {type : τ} :
    (∃ k, (t.newInstance name type).key = .ok k) ↔ t.find? name = none := by
  have hanswers : Answers t (.newInstance name type) (t.newInstance name type) := answers t _
  generalize t.newInstance name type = out at hanswers
  cases hanswers with
  | registered hnew => exact ⟨fun _ => hnew, fun _ => ⟨_, rfl⟩⟩
  | taken hk => simp [hk]

theorem valueOf_eq_error_iff {t : OptionTable τ} {name : String} {type : τ} {e : ConfigError} :
    (t.valueOf name type).key = .error e
      ↔ ∃ k, t.find? name = some k ∧ k.type ≠ type
        ∧ e = .typeMismatch name (fullName k.type) (fullName type) := by
  have hanswers : Answers t (.valueOf name type) (t.valueOf name type) := answers t _
  generalize t.valueOf name type = out at hanswers
  cases hanswers with
  | registered hnew =>
    have hnone : t.find? name = none := hnew
    simp [register, hnone]
  | found hk => simp [hk]
  | mistyped hk hne => simp [hk, hne.symm, eq_comm]

/-- The number, the name and the type of an option belong together, however requests of both kinds
and of all types are mixed: keys that were given out are equal just when their names are, a name
keeps its key, the names get the numbers from 1024 on as they are first used, and a request that is
refused has left no trace. As long as there are fewer than `2 ^ 32 - 1024` registrations, the
numbers fit in a 32-bit word. -/
theorem serveIn_identifies (own : ValueType → τ) (before : List (Request τ)) (request : Request τ)
    (after : List (Request τ)) :
    let requests := before ++ request :: after
    let uses := firstUses builtInNames requests
    let t := serveIn own before
    let out := t.answer request
    let t' := serveIn own requests
    (∀ k ∈ (initialIn own).given requests, ∀ k' ∈ (initialIn own).given requests,
        k.same k' = true ↔ k.name = k'.name)
      ∧ (∀ name k, t.find? name = some k → t'.find? name = some k)
      ∧ (∀ k, out.key = .ok k → t'.find? request.name = some k ∧ k.type = request.type)
      ∧ t'.keys = OptionKey.builtIns.map (·.retype own)
          ++ uses.mapIdx (fun i use => ⟨1024 + i, use.name, use.type⟩)
      ∧ t'.nextId = 1024 + uses.length
      ∧ (t'.nextId < UInt32.size ↔ uses.length < UInt32.size - 1024)
      ∧ (∀ k ∈ OptionKey.builtIns, k.id < 1024)
      ∧ (∀ name, t.find? name = none
          ↔ name ∉ builtInNames ∧ ∀ earlier ∈ before, earlier.name ≠ name)
      ∧ (∀ name type, (∃ k, (t.newInstance name type).key = .ok k) ↔ t.find? name = none)
      ∧ (∀ name type e, (t.valueOf name type).key = .error e
          ↔ ∃ k, t.find? name = some k ∧ k.type ≠ type
            ∧ e = .typeMismatch name (fullName k.type) (fullName type))
      ∧ (∀ e, out.key = .error e → out.table = t) := by
  intro requests uses t out t'
  have hserve : t' = out.table.serveFrom after := serveFrom_append (initialIn own) before _
  have hlater : t' = t.serveFrom (request :: after) := serveFrom_append (initialIn own) before _
  have hdistinct : t'.Distinct := (distinct_initialIn own).serveFrom requests
  have hnext : t'.nextId = 1024 + uses.length := congrArg nextId (serveIn_eq own requests)
  refine ⟨?same, ?kept, ?returned, congrArg keys (serveIn_eq own requests), hnext, ?word,
    coherent_initial.below, fun name => find?_serveIn_eq_none_iff, fun _ _ => newInstance_eq_ok_iff,
    fun _ _ _ => valueOf_eq_error_iff, fun e he => (answers t request).table_of_error he⟩
  case same =>
    intro k hk k' hk'
    exact hdistinct.same_iff (mem_serveFrom_of_given hk) (mem_serveFrom_of_given hk')
  case kept =>
    intro name k hk
    rw [hlater]
    exact find?_serveFrom hk _
  case returned =>
    intro k hk
    obtain ⟨hfound, htype⟩ := (answers t request).find?_of_ok hk
    rw [hserve]
    exact ⟨find?_serveFrom hfound after, htype⟩
  case word => omega

end OptionTable

end FlowControl
