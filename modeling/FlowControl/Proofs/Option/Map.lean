import FlowControl.Option.Map
import FlowControl.Profile.Basic
import FlowControl.Proofs.Option.Table

/-!
# The entries of a map

A map that is filled through its operations lists its entries by number, so that every option has
one entry and a look-up finds it (`OptionMap.Listed`). Snapshots and the batches of profiles are
such maps.
-/

set_option autoImplicit false

namespace FlowControl

namespace OptionMap

variable {τ ν : Type} {t : OptionTable τ} {m : OptionMap τ ν}

/-- The entries are about options of the table, in the order of their numbers. -/
structure Listed (t : OptionTable τ) (m : OptionMap τ ν) : Prop where
  ordered : m.entries.Pairwise fun e e' => e.1.id < e'.1.id
  known : ∀ e ∈ m.entries, e.1 ∈ t.keys

theorem mem_insertEntry {k : OptionKey τ} {v : ν} {e : OptionKey τ × ν}
    {es : List (OptionKey τ × ν)} (h : e ∈ insertEntry k v es) :
    e.1 = k ∨ ∃ e' ∈ es, e'.1 = e.1 := by
  induction es with
  | nil =>
    rw [List.mem_singleton.1 h]
    exact .inl rfl
  | cons e₁ rest ih =>
    simp only [insertEntry] at h
    split at h
    · rcases List.mem_cons.1 h with rfl | h
      · exact .inl rfl
      · exact .inr ⟨e, h, rfl⟩
    · split at h
      · rcases List.mem_cons.1 h with rfl | h
        · exact .inr ⟨e, List.mem_cons_self, rfl⟩
        · rcases ih h with hk | ⟨e', he', hkey⟩
          · exact .inl hk
          · exact .inr ⟨e', List.mem_cons_of_mem _ he', hkey⟩
      · rcases List.mem_cons.1 h with rfl | h
        · exact .inr ⟨e₁, List.mem_cons_self, rfl⟩
        · exact .inr ⟨e, List.mem_cons_of_mem _ h, rfl⟩

theorem pairwise_insertEntry (k : OptionKey τ) (v : ν) {es : List (OptionKey τ × ν)}
    (h : es.Pairwise fun e e' => e.1.id < e'.1.id) :
    (insertEntry k v es).Pairwise fun e e' => e.1.id < e'.1.id := by
  induction es with
  | nil => exact List.pairwise_singleton _ _
  | cons e rest ih =>
    obtain ⟨hfirst, hrest⟩ := List.pairwise_cons.1 h
    simp only [insertEntry]
    split
    · rename_i hlt
      refine List.pairwise_cons.2 ⟨?_, h⟩
      intro e' he'
      rcases List.mem_cons.1 he' with rfl | he'
      · exact hlt
      · exact Nat.lt_trans hlt (hfirst e' he')
    · split
      · rename_i hlt
        refine List.pairwise_cons.2 ⟨?_, ih hrest⟩
        intro e' he'
        rcases mem_insertEntry he' with hk | ⟨e₁, he₁, hkey⟩
        · rw [hk]
          exact hlt
        · rw [← hkey]
          exact hfirst e₁ he₁
      · exact List.pairwise_cons.2 ⟨hfirst, hrest⟩

theorem Listed.empty : Listed t (.empty : OptionMap τ ν) := ⟨.nil, nofun⟩

theorem Listed.insert (hm : m.Listed t) {k : OptionKey τ} (hk : k ∈ t.keys) (v : ν) :
    (m.insert k v).Listed t where
  ordered := pairwise_insertEntry k v hm.ordered
  known e he := by
    rcases mem_insertEntry he with heq | ⟨e', he', hkey⟩
    · rw [heq]
      exact hk
    · rw [← hkey]
      exact hm.known e' he'

theorem Listed.extend {entries : List (OptionKey τ × ν)} (hm : m.Listed t)
    (hentries : ∀ e ∈ entries, e.1 ∈ t.keys) : (m.extend entries).Listed t := by
  induction entries generalizing m with
  | nil => exact hm
  | cons e rest ih =>
    exact ih (hm.insert (hentries e List.mem_cons_self) e.2)
      fun e' he' => hentries e' (List.mem_cons_of_mem _ he')

theorem Listed.erase (hm : m.Listed t) (k : OptionKey τ) : (m.erase k).Listed t where
  ordered := hm.ordered.filter _
  known e he := hm.known e (List.mem_filter.1 he).1

theorem Listed.find?_eq (hm : m.Listed t) {e : OptionKey τ × ν} (he : e ∈ m.entries) :
    m.find? e.1 = some e.2 := by
  obtain ⟨es⟩ := m
  obtain ⟨hordered, -⟩ := hm
  simp only [find?] at he ⊢
  induction es with
  | nil => cases he
  | cons e₁ rest ih =>
    obtain ⟨hfirst, hrest⟩ := List.pairwise_cons.1 hordered
    rcases List.mem_cons.1 he with rfl | he
    · simp [OptionKey.same]
    · have hne : e₁.1.same e.1 = false := by
        simpa [OptionKey.same] using Nat.ne_of_lt (hfirst e he)
      rw [List.find?_cons, hne]
      exact ih he hrest

end OptionMap

/-! ## The batch of a profile -/

namespace Profile

theorem key_of_mem_map {α : Type} {k : OptionKey} {value : α → Value} {setting : Option α}
    {e : OptionKey × Value} (h : e ∈ (setting.map fun a => (k, value a)).toList) : e.1 = k := by
  obtain ⟨a, -, rfl⟩ := Option.map_eq_some_iff.1 (Option.mem_toList.1 h)
  rfl

theorem key_of_mem_built {α : Type} {k : OptionKey} {value : α → Value}
    {section? : Option (Except ConfigError α)} {e : OptionKey × Value}
    (h : e ∈ built k value section?) : e.1 = k := by
  unfold built at h
  split at h
  · rw [List.mem_singleton.1 h]
  · cases h

/-- A profile sets built-in options only. -/
theorem key_mem_builtIns {p : Profile} {e : OptionKey × Value} (h : e ∈ p.entries) :
    e.1 ∈ OptionKey.builtIns := by
  simp only [entries, List.mem_append] at h
  rcases h with ((((((h | h) | h) | h) | h) | h) | h) | h
  · rw [key_of_mem_map h]; decide
  · rw [key_of_mem_map h]; decide
  · rw [key_of_mem_map h]; decide
  · rw [key_of_mem_map h]; decide
  · rw [key_of_mem_built h]; decide
  · rw [key_of_mem_built h]; decide
  · rw [key_of_mem_map h]; decide
  · cases hs : p.socket with
    | none =>
      rw [hs] at h
      cases h
    | some s =>
      rw [hs] at h
      simp only [Option.map_some, Option.getD_some, SocketSection.entries, List.mem_append] at h
      rcases h with ((((h | h) | h) | h) | h) | h <;> rw [key_of_mem_map h] <;> decide

theorem listed_batch {t : OptionTable} (ht : t.Coherent) (p : Profile) : p.batch.Listed t :=
  OptionMap.Listed.extend .empty fun _ he => ht.builtIn _ (key_mem_builtIns he)

end Profile

end FlowControl
