import FlowControl.Proofs.Option.Identity
import FlowControl.Proofs.Option.Map
import Mathlib.Data.List.Induction
import Mathlib.Data.List.Nodup

/-!
# What a map has been told

A map of options is filled by calls of five kinds, in any order, by clients that got their keys from
the table at different times. None of this should show. What a map holds is a matter of names: for
every name the value that was written last, unless the option has been removed since.

All calls come down to writes, where a removal is a write of nothing (`MapCall.writes`), and
`lastWritten` looks through the writes from their end. It reads names and nothing else, while the
map compares numbers and keeps its entries in their order. The two agree because in the table a
number and a name belong together (`OptionTable.Distinct`). It follows that a map has no memory: two
histories that leave the same for every name leave the same map (`OptionMap.performAll_congr`).

The keys of a history are those of the table at its end. A table only grows, so the keys that it has
given out at any earlier time are among them (`OptionTable.mem_serveFrom`). Their numbers are those
of the table, and fit in words as long as it has fewer than `2 ^ 32 - 1024` new names.
-/

set_option autoImplicit false

namespace FlowControl

variable {τ ν : Type} {t : OptionTable τ}

/-! ## Writes -/

/-- The value that was written last for a name, if the last write was one of a value. -/
def lastWritten (name : String) (ws : List (t.Key × Option ν)) : Option ν :=
  (ws.findRev? fun w => w.1.key.name = name).bind (·.2)

theorem lastWritten_concat (name : String) (ws : List (t.Key × Option ν))
    (w : t.Key × Option ν) : lastWritten name (ws ++ [w])
      = if w.1.key.name = name then w.2 else lastWritten name ws := by
  simp only [lastWritten, List.findRev?_eq_find?_reverse, List.reverse_concat, List.find?_cons]
  by_cases hname : w.1.key.name = name
  · simp [hname]
  · simp [hname]

/-- Among writes for different names every write is the last one for its name. -/
theorem lastWritten_eq_some_iff {ws : List (t.Key × Option ν)}
    (hnames : (ws.map (·.1.key.name)).Nodup) {name : String} {v : ν} :
    lastWritten name ws = some v ↔ ∃ k, (k, some v) ∈ ws ∧ k.key.name = name := by
  rw [lastWritten, List.findRev?_eq_find?_reverse, Option.bind_eq_some_iff]
  constructor
  · rintro ⟨⟨k, v?⟩, hfound, rfl⟩
    exact ⟨k, List.mem_reverse.1 (List.mem_of_find?_eq_some hfound),
      by simpa using List.find?_some hfound⟩
  · rintro ⟨k, hmem, hk⟩
    cases hfound : ws.reverse.find? fun w => w.1.key.name = name with
    | none =>
      have hnone := List.find?_eq_none.1 hfound (k, some v) (List.mem_reverse.2 hmem)
      exact absurd hk (by simpa using hnone)
    | some w =>
      have hw : w.1.key.name = name := by simpa using List.find?_some hfound
      have hsame : w = (k, some v) := List.inj_on_of_nodup_map hnames
        (List.mem_reverse.1 (List.mem_of_find?_eq_some hfound)) hmem (hw.trans hk.symm)
      exact ⟨w, rfl, congrArg Prod.snd hsame⟩

/-- Then the order of the writes does not matter. -/
theorem lastWritten_perm {ws ws' : List (t.Key × Option ν)} (hperm : ws'.Perm ws)
    (hnames : (ws.map (·.1.key.name)).Nodup) (name : String) :
    lastWritten name ws' = lastWritten name ws := by
  have hnames' : (ws'.map (·.1.key.name)).Nodup := (hperm.map _).nodup_iff.2 hnames
  ext v
  rw [lastWritten_eq_some_iff hnames', lastWritten_eq_some_iff hnames]
  simp only [hperm.mem_iff]

namespace OptionMap

/-! ## Entries and look-ups -/

variable {m m' : OptionMap τ ν}

/-- In a table of distinct keys an entry is found under its own key only. -/
theorem Listed.mem_entries_iff (ht : t.Distinct) (hm : m.Listed t) {k : OptionKey τ} {v : ν} :
    (k, v) ∈ m.entries ↔ k ∈ t.keys ∧ m.find? k = some v := by
  constructor
  · intro hmem
    exact ⟨hm.known _ hmem, hm.find?_eq hmem⟩
  · rintro ⟨hk, hfind⟩
    obtain ⟨e, he, rfl⟩ := Option.map_eq_some_iff.1 hfind
    have hmem : e ∈ m.entries := List.mem_of_find?_eq_some he
    have hid : e.1.id = k.id := by simpa [OptionKey.same] using List.find?_some he
    have hkey : e.1 = k := by
      by_contra hne
      exact (ht.apart_of_ne (hm.known e hmem) hk hne).1 hid
    rw [← hkey]
    exact hmem

theorem Listed.nodup (hm : m.Listed t) : m.entries.Nodup :=
  hm.ordered.imp fun hlt heq => absurd (congrArg (·.1.id) heq) (Nat.ne_of_lt hlt)

/-- There is one way only to list given entries by number. -/
theorem Listed.eq_of_find? (ht : t.Distinct) (hm : m.Listed t) (hm' : m'.Listed t)
    (hfind : ∀ k ∈ t.keys, m.find? k = m'.find? k) : m = m' := by
  have hmem : ∀ e, e ∈ m.entries ↔ e ∈ m'.entries := by
    rintro ⟨k, v⟩
    rw [hm.mem_entries_iff ht, hm'.mem_entries_iff ht]
    exact and_congr_right fun hk => by rw [hfind k hk]
  have hperm : m.entries.Perm m'.entries := (List.perm_ext_iff_of_nodup hm.nodup hm'.nodup).2 hmem
  have hentries : m.entries = m'.entries :=
    List.Perm.eq_of_pairwise (fun _ _ _ _ hlt hgt => absurd hlt (Nat.lt_asymm hgt))
      hm.ordered hm'.ordered hperm
  cases m
  cases m'
  exact congrArg OptionMap.mk hentries

/-! ## One write -/

/-- Write a value for an option, or nothing. -/
def write (w : t.Key × Option ν) (m : OptionMap τ ν) : OptionMap τ ν :=
  match w.2 with
  | some v => m.insert w.1.key v
  | none => m.erase w.1.key

theorem Listed.write (hm : m.Listed t) (w : t.Key × Option ν) : (m.write w).Listed t := by
  obtain ⟨k, v?⟩ := w
  cases v? with
  | none => exact hm.erase k.key
  | some v => exact hm.insert k.known v

theorem find?_write (ht : t.Distinct) (w : t.Key × Option ν) (m : OptionMap τ ν)
    {k : OptionKey τ} (hk : k ∈ t.keys) :
    (m.write w).find? k = if w.1.key.name = k.name then w.2 else m.find? k := by
  obtain ⟨k', v?⟩ := w
  have hsame : k'.key.id = k.id ↔ k'.key.name = k.name := by
    rw [← ht.same_iff k'.known hk, OptionKey.same, beq_iff_eq]
  cases v? with
  | none => simp only [OptionMap.write, find?_erase, hsame]
  | some v => simp only [OptionMap.write, find?_insert, hsame]

/-! ## All writes of a history -/

def writeAll (ws : List (t.Key × Option ν)) (m : OptionMap τ ν) : OptionMap τ ν :=
  ws.foldl (fun m w => m.write w) m

theorem writeAll_concat (ws : List (t.Key × Option ν)) (w : t.Key × Option ν)
    (m : OptionMap τ ν) : m.writeAll (ws ++ [w]) = (m.writeAll ws).write w :=
  List.foldl_concat ..

theorem listed_writeAll (ws : List (t.Key × Option ν)) :
    ((empty : OptionMap τ ν).writeAll ws).Listed t := by
  induction ws using List.reverseRecOn with
  | nil => exact .empty
  | append_singleton ws w ih =>
    rw [writeAll_concat]
    exact ih.write w

theorem find?_writeAll (ht : t.Distinct) (ws : List (t.Key × Option ν)) {k : OptionKey τ}
    (hk : k ∈ t.keys) :
    ((empty : OptionMap τ ν).writeAll ws).find? k = lastWritten k.name ws := by
  induction ws using List.reverseRecOn with
  | nil => rfl
  | append_singleton ws w ih => rw [writeAll_concat, find?_write ht w _ hk, lastWritten_concat, ih]

end OptionMap

/-! ## Calls -/

/-- What a client does to fill a map, with options of the table. -/
inductive MapCall {τ : Type} (t : OptionTable τ) (ν : Type) [TypedValue ν τ] where
  /-- Store a value of the option's type. -/
  | insert (k : t.Key) (v : ν) (typed : TypedValue.type v = k.key.type)
  /-- The same, where the answer is the map itself, for further calls. -/
  | chain (k : t.Key) (v : ν) (typed : TypedValue.type v = k.key.type)
  /-- Store a value of whatever type. -/
  | insertErased (k : t.Key) (v : ν)
  | remove (k : t.Key)
  /-- Store entries one after the other. -/
  | extend (entries : List (t.Key × ν))

variable [TypedValue ν τ]

namespace MapCall

/-- The map after the call, and what the option had before if the call answers with that. -/
def perform (c : MapCall t ν) (m : OptionMap τ ν) : Option (Option ν) × OptionMap τ ν :=
  match c with
  | insert k v _ => (m.replace k.key v).map some id
  | chain k v _ => (none, (m.replace k.key v).2)
  | insertErased k v => (m.replace k.key v).map some id
  | remove k => (m.take k.key).map some id
  | extend entries => (none, m.extend (entries.map fun e => (e.1.key, e.2)))

/-- The option that the answer of the call is about. -/
def asks? : MapCall t ν → Option t.Key
  | insert k _ _ => some k
  | insertErased k _ => some k
  | remove k => some k
  | chain .. => none
  | extend _ => none

/-- What the call writes, one option after the other. -/
def writes : MapCall t ν → List (t.Key × Option ν)
  | insert k v _ => [(k, some v)]
  | chain k v _ => [(k, some v)]
  | insertErased k v => [(k, some v)]
  | remove k => [(k, none)]
  | extend entries => entries.map fun e => (e.1, some e.2)

end MapCall

namespace OptionMap

theorem perform_fst (c : MapCall t ν) (m : OptionMap τ ν) :
    (c.perform m).1 = c.asks?.map fun k => m.find? k.key := by
  cases c with
  | insert | chain | insertErased | remove | extend => rfl

/-- A call does to the map what its writes do. -/
theorem perform_snd (c : MapCall t ν) (m : OptionMap τ ν) :
    (c.perform m).2 = m.writeAll c.writes := by
  cases c with
  | insert | chain | insertErased | remove => rfl
  | extend entries =>
    simp only [MapCall.perform, MapCall.writes, extend, writeAll, List.foldl_map, OptionMap.write]

/-- The map after a history of calls. -/
def performAll (calls : List (MapCall t ν)) (m : OptionMap τ ν) : OptionMap τ ν :=
  calls.foldl (fun m c => (c.perform m).2) m

theorem performAll_eq (calls : List (MapCall t ν)) (m : OptionMap τ ν) :
    m.performAll calls = m.writeAll (calls.flatMap MapCall.writes) := by
  simp only [performAll, writeAll, List.foldl_flatMap, perform_snd]

/-- A map does not remember how it came about. -/
theorem performAll_congr (ht : t.Distinct) {calls calls' : List (MapCall t ν)}
    (hlast : ∀ name, lastWritten name (calls.flatMap MapCall.writes)
      = lastWritten name (calls'.flatMap MapCall.writes)) :
    (empty : OptionMap τ ν).performAll calls = (empty : OptionMap τ ν).performAll calls' := by
  rw [performAll_eq, performAll_eq]
  refine (listed_writeAll _).eq_of_find? ht (listed_writeAll _) fun k hk => ?_
  rw [find?_writeAll ht _ hk, find?_writeAll ht _ hk, hlast]

end OptionMap

namespace OptionTable

variable [DecidableEq τ] [NamedType τ]

/-- A map that was empty at first holds, after any history of calls, for every name what was written
last for it, and nothing else. It lists its entries by number, with no number and no name twice.
A call that answers with the value that its option had answers with what was written last; so does
typed access, if that is of the option's type, and else it finds nothing. Writes for different names
give the same map in whatever order and by whichever calls they are made. -/
theorem performAll_lastWritten (own : ValueType → τ) (requests : List (Request τ))
    (calls : List (MapCall (serveIn own requests) ν)) :
    let t := serveIn own requests
    let writes := calls.flatMap MapCall.writes
    let m : OptionMap τ ν := OptionMap.empty.performAll calls
    (∀ k v, (k, v) ∈ m.entries ↔ k ∈ t.keys ∧ lastWritten k.name writes = some v)
      ∧ (m.keys.Pairwise fun k k' => k.id < k'.id ∧ k.name ≠ k'.name)
      ∧ (∀ next : MapCall t ν,
          (next.perform m).1 = next.asks?.map fun k => lastWritten k.key.name writes)
      ∧ (∀ k ∈ t.keys, m.find? k = lastWritten k.name writes)
      ∧ (∀ k ∈ t.keys, ∀ v,
          m.get? k = some v ↔ lastWritten k.name writes = some v ∧ TypedValue.type v = k.type)
      ∧ ∀ calls' : List (MapCall t ν), (calls'.flatMap MapCall.writes).Perm writes →
          (writes.map (·.1.key.name)).Nodup → OptionMap.empty.performAll calls' = m := by
  intro t writes m
  have ht : t.Distinct := (distinct_initialIn own).serveFrom requests
  have hm : m = OptionMap.empty.writeAll writes := OptionMap.performAll_eq calls _
  have hlisted : m.Listed t := hm ▸ OptionMap.listed_writeAll writes
  have hfind : ∀ k ∈ t.keys, m.find? k = lastWritten k.name writes := by
    intro k hk
    rw [hm]
    exact OptionMap.find?_writeAll ht writes hk
  refine ⟨?entries, ?keys, ?answers, hfind, ?typed, ?orders⟩
  case entries =>
    intro k v
    rw [hlisted.mem_entries_iff ht]
    exact and_congr_right fun hk => by rw [hfind k hk]
  case keys =>
    refine List.pairwise_map.2 (hlisted.ordered.imp_of_mem ?_)
    intro e e' he he' hlt
    have hne : e.1 ≠ e'.1 := fun heq => Nat.ne_of_lt hlt (congrArg OptionKey.id heq)
    exact ⟨hlt, (ht.apart_of_ne (hlisted.known e he) (hlisted.known e' he') hne).2⟩
  case answers =>
    intro next
    rw [OptionMap.perform_fst]
    exact congrArg (next.asks?.map ·) (funext fun k => hfind k.key k.known)
  case typed =>
    intro k hk v
    rw [OptionMap.get?, hfind k hk, Option.filter_eq_some_iff, decide_eq_true_iff]
  case orders =>
    intro calls' hperm hnames
    exact OptionMap.performAll_congr ht (lastWritten_perm hperm hnames)

/-- A value of another type is held all the same, and typed access does not find it. -/
example :
    let autoRead : initial.Key := ⟨.autoRead, by decide⟩
    let m : OptionMap := OptionMap.empty.performAll
      [.insert autoRead (.bool true) rfl, .insertErased autoRead (.i32 1)]
    m.find? .autoRead = some (.i32 1) ∧ m.get? .autoRead = none := by decide

end OptionTable

end FlowControl
