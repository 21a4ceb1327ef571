import FlowControl.Proofs.Config.Entries
import FlowControl.Proofs.Config.Snapshot

/-!
# Values of a wrong type

A client can write a value of another type than the option's. Every layer that claims the option
refuses the value and keeps what it has, so that among entries that are written one by one the
mistyped ones can be left out: all that is missing then are their refusals
(`foldl_after_filter`, `filterMap_refusal_perm`).

The second part is about entries that do not concern the water marks: they are judged and stored
whatever the gate is like, and leave it alone.
-/

set_option autoImplicit false

namespace FlowControl

open Write (answer)

/-! ## Which entries are mistyped -/

namespace Config

def claimsAt (k : OptionKey) (c : Config Empty) : Slot → Bool
  | .core => (CoreOption.ofKey? k).isSome
  | .layer i =>
    match c.layers[i]? with
    | some (.socket _) => (SocketOption.ofKey? k).isSome
    | some (.registry r) => r.contains k
    | _ => false
  | .registry => c.registry.contains k

/-- Some layer of the configuration claims the option. -/
def claims (k : OptionKey) (c : Config Empty) : Bool := c.chain.any (c.claimsAt k)

/-- The entry is about an option that a layer claims, and its value has another type. -/
def mistyped (c : Config Empty) (e : OptionKey × Value) : Bool :=
  c.claims e.1 && !decide (e.2.type = e.1.type)

variable {verdict : Nat → Value → Option String} {k : OptionKey} {v : Value} {c : Config Empty}

theorem isSome_storeAt (slot : Slot) :
    (c.storeAt verdict k v slot).isSome = c.claimsAt k slot := by
  cases slot with
  | core => simp only [storeAt, claimsAt, Option.isSome_map]
  | registry => simp only [storeAt, claimsAt, Option.isSome_map, Registry.write, Registry.contains]
  | layer i =>
    simp only [storeAt, claimsAt, Option.isSome_map]
    rcases c.layers[i]? with _ | l
    · rfl
    · cases l with
      | socket options =>
        simp only [Option.bind_some, Layer.store, SocketOptions.trySet, Option.isSome_map]
      | registry r =>
        simp only [Option.bind_some, Layer.store, Registry.write, Registry.contains,
          Option.isSome_map]
      | custom e => exact e.elim

theorem isSome_store : (c.store verdict k v).isSome = c.claims k := by
  unfold store claims
  induction c.chain with
  | nil => rfl
  | cons slot rest ih =>
    have hslot : (c.storeAt verdict k v slot).isSome = c.claimsAt k slot := isSome_storeAt slot
    rw [List.findSome?_cons, List.any_cons, ← hslot]
    cases c.storeAt verdict k v slot with
    | none => rw [ih]; rfl
    | some r => rfl

end Config

/-! ## A mistyped entry is refused and changes nothing -/

/-- How an entry with a value of a wrong type is refused. -/
def blame (e : OptionKey × Value) : Rejection := ⟨e.1, .wrongType e.1.name e.1.type.fullName⟩

/-- A write of the entry is not claimed, or it is refused for its type. -/
def Barred {α : Type} (e : OptionKey × Value) (r : Option (Except ConfigError α)) : Prop :=
  answer r = none ∨ answer r = some (.error (blame e).error)

theorem Core.store_of_type_ne {o : CoreOption} {v : Value} (h : v.type ≠ o.key.type) (c : Core) :
    c.store o v = .error (.wrongType o.key.name o.key.type.fullName) := by
  cases o <;> cases v <;> first | rfl | exact absurd rfl h

theorem SocketOptions.set_of_type_ne {o : SocketOption} {v : Value} (h : v.type ≠ o.key.type)
    (s : SocketOptions) : s.set o v = .error (.wrongType o.key.name o.key.type.fullName) := by
  cases o <;> cases v <;> first | rfl | exact absurd rfl h

section Mistyped

variable {t : OptionTable} {verdict : Nat → Value → Option String} {c : Config Empty}
  {e : OptionKey × Value}

theorem Core.barred_write (ht : t.Coherent) (hkey : e.1 ∈ t.keys) (he : e.2.type ≠ e.1.type)
    (c : Core) : Barred e (c.write e.1 e.2) := by
  unfold write
  cases ho : CoreOption.ofKey? e.1 with
  | none => exact .inl rfl
  | some o =>
    have hk : o.key = e.1 := ht.eq_builtIn hkey o.key_mem_builtIns (CoreOption.id_of_ofKey? ho)
    right
    rw [Option.map_some, store_of_type_ne (hk ▸ he), hk]
    rfl

theorem SocketOptions.barred_trySet (ht : t.Coherent) (hkey : e.1 ∈ t.keys)
    (he : e.2.type ≠ e.1.type) (s : SocketOptions) : Barred e (s.trySet e.1 e.2) := by
  unfold trySet
  cases ho : SocketOption.ofKey? e.1 with
  | none => exact .inl rfl
  | some o =>
    have hk : o.key = e.1 := ht.eq_builtIn hkey o.key_mem_builtIns (SocketOption.id_of_ofKey? ho)
    right
    rw [Option.map_some, set_of_type_ne (hk ▸ he), hk]
    rfl

theorem Registry.barred_write (he : e.2.type ≠ e.1.type) (r : Registry) :
    Barred e (r.write verdict e.1 e.2) := by
  unfold write
  cases r.find? e.1 with
  | none => exact .inl rfl
  | some d =>
    right
    simp only [OptionKey.expectType, if_neg he, Option.map_some]
    rfl

namespace Config

theorem barred_storeAt (ht : t.Coherent) (hkey : e.1 ∈ t.keys) (he : e.2.type ≠ e.1.type)
    (c : Config Empty) (slot : Slot) : Barred e (c.storeAt verdict e.1 e.2 slot) := by
  cases slot with
  | core =>
    show Barred e ({ c with core := c.core }.storeAt verdict e.1 e.2 .core)
    rw [storeAt_withCore, Barred, Write.answer_map]
    exact Core.barred_write ht hkey he c.core
  | registry =>
    rw [storeAt, Barred, Write.answer_map]
    exact Registry.barred_write he c.registry
  | layer i =>
    rw [storeAt, Barred, Write.answer_map]
    cases c.layers[i]? with
    | none => exact .inl rfl
    | some l =>
      cases l with
      | socket options =>
        rw [Option.bind_some, Layer.store, Write.answer_map]
        exact SocketOptions.barred_trySet ht hkey he options
      | registry r =>
        rw [Option.bind_some, Layer.store, Write.answer_map]
        exact Registry.barred_write he r
      | custom e => exact e.elim

theorem barred_store (ht : t.Coherent) (hkey : e.1 ∈ t.keys) (he : e.2.type ≠ e.1.type)
    (c : Config Empty) : Barred e (c.store verdict e.1 e.2) := by
  rw [store_eq]
  cases c.claimant verdict e.1 e.2 with
  | none => exact .inl rfl
  | some slot => exact barred_storeAt ht hkey he c slot

theorem after_of_type_ne (ht : t.Coherent) (hkey : e.1 ∈ t.keys) (he : e.2.type ≠ e.1.type)
    (c : Config Empty) : c.after verdict e = c := by
  refine after_of_not_store ?_
  intro c' hc'
  have hbarred : Barred e (c.store verdict e.1 e.2) := barred_store ht hkey he c
  rcases hbarred with h | h <;> rw [hc'] at h <;> cases h

theorem type_ne_of_mistyped (h : c.mistyped e) : e.2.type ≠ e.1.type := by
  simpa using (Bool.and_eq_true_iff.1 h).2

theorem refusal_of_mistyped (ht : t.Coherent) (hkey : e.1 ∈ t.keys) (h : c.mistyped e) :
    c.refusal verdict e = some (blame e) := by
  have hclaims : (c.store verdict e.1 e.2).isSome := by
    rw [isSome_store]
    exact (Bool.and_eq_true_iff.1 h).1
  have hbarred : Barred e (c.store verdict e.1 e.2) :=
    barred_store ht hkey (type_ne_of_mistyped h) c
  unfold refusal
  rcases hbarred with hs | hs
  · rw [Write.answer_eq_none_iff] at hs
    rw [hs] at hclaims
    cases hclaims
  · rw [Write.answer_eq_error_iff] at hs
    rw [hs]
    rfl

end Config

/-- Mistyped entries may be left out: the configuration becomes the same, and what is missing among
the refusals are those of these entries. -/
theorem foldl_after_filter (ht : t.Coherent) {entries : List (OptionKey × Value)}
    (hkeys : ∀ e ∈ entries, e.1 ∈ t.keys) (c c' : Config Empty) :
    (entries.filter fun e => !c.mistyped e).foldl (Config.after verdict) c' =
      entries.foldl (Config.after verdict) c' := by
  induction entries generalizing c' with
  | nil => rfl
  | cons e rest ih =>
    have hrest := ih fun e' he' => hkeys e' (List.mem_cons_of_mem e he')
    cases he : c.mistyped e with
    | true =>
      have hsame : c'.after verdict e = c' :=
        Config.after_of_type_ne ht (hkeys e List.mem_cons_self) (Config.type_ne_of_mistyped he) c'
      rw [List.filter_cons_of_neg (by simp [he]), List.foldl_cons, hsame]
      exact hrest c'
    | false =>
      rw [List.filter_cons_of_pos (by simp [he]), List.foldl_cons, List.foldl_cons]
      exact hrest _

theorem filterMap_refusal_perm (ht : t.Coherent) {entries : List (OptionKey × Value)}
    (hkeys : ∀ e ∈ entries, e.1 ∈ t.keys) (c : Config Empty) :
    (entries.filterMap (c.refusal verdict)).Perm
      ((entries.filter fun e => !c.mistyped e).filterMap (c.refusal verdict) ++
        (entries.filter c.mistyped).map blame) := by
  have hblamed : (entries.filter c.mistyped).filterMap (c.refusal verdict) =
      (entries.filter c.mistyped).map blame := by
    rw [← List.filterMap_eq_map]
    refine List.filterMap_congr ?_
    intro e he
    obtain ⟨hmem, hmistyped⟩ := List.mem_filter.1 he
    exact Config.refusal_of_mistyped ht (hkeys e hmem) hmistyped
  rw [← hblamed, ← List.filterMap_append]
  refine List.Perm.filterMap _ ?_
  exact (List.filter_append_perm c.mistyped entries).symm.trans List.perm_append_comm

end Mistyped

/-! ## The other entries and the gate -/

section Gate

variable {verdict : Nat → Value → Option String}

theorem Core.store_withGate {o : CoreOption} (ho : ¬ o.key.IsMark) (v : Value) (gate : Gate)
    (c : Core) : { c with gate }.store o v = (c.store o v).map fun c => { c with gate } := by
  cases o with
  | highMark | lowMark | marks => exact absurd (by decide) ho
  | connectTimeout =>
    cases v with
    | i32 n =>
      simp only [store, withConnectTimeout]
      split <;> rfl
    | _ => rfl
  | maxMessages =>
    cases v with
    | i32 n =>
      simp only [store, withMaxMessages]
      cases positive .maxMessages n <;> rfl
    | _ => rfl
  | writeSpinCount =>
    cases v with
    | i32 n =>
      simp only [store, withWriteSpinCount]
      cases positive .writeSpinCount n <;> rfl
    | _ => rfl
  | autoRead | sizing | estimator => cases v <;> rfl

namespace Config

variable {k : OptionKey} {v : Value} {e : OptionKey × Value}

/-- Options that are not about the water marks are stored whatever the gate is like. -/
theorem storeAt_withGate (hk : ¬ k.IsMark) (gate : Gate) (c : Config Empty) (slot : Slot) :
    (c.withGate gate).storeAt verdict k v slot =
      (c.storeAt verdict k v slot).map (·.map (withGate gate)) := by
  cases slot with
  | core =>
    unfold storeAt
    cases ho : CoreOption.ofKey? k with
    | none => rfl
    | some o =>
      have hmark : ¬ o.key.IsMark := by
        rwa [OptionKey.isMark_congr (CoreOption.id_of_ofKey? ho)]
      have hstore : (c.withGate gate).core.store o v = (c.core.store o v).map fun core =>
        { core with gate } := Core.store_withGate hmark v gate c.core
      rw [Option.map_some, Option.map_some, Option.map_some, hstore]
      cases c.core.store o v <;> rfl
  | layer i =>
    show Option.map _ (c.layers[i]?.bind (Layer.store verdict k v)) =
      Option.map _ (Option.map _ (c.layers[i]?.bind (Layer.store verdict k v)))
    rcases c.layers[i]?.bind (Layer.store verdict k v) with _ | _ | _ <;> rfl
  | registry =>
    show Option.map _ (c.registry.write verdict k v) =
      Option.map _ (Option.map _ (c.registry.write verdict k v))
    rcases c.registry.write verdict k v with _ | _ | _ <;> rfl

theorem store_withGate (hk : ¬ k.IsMark) (gate : Gate) (c : Config Empty) :
    (c.withGate gate).store verdict k v = (c.store verdict k v).map (·.map (withGate gate)) := by
  have hchain : (c.withGate gate).chain = c.chain := rfl
  have hslots : (c.withGate gate).storeAt verdict k v =
      fun slot => (c.storeAt verdict k v slot).map (·.map (withGate gate)) :=
    funext (storeAt_withGate hk gate c)
  unfold store
  rw [hchain, hslots]
  exact List.map_findSome?.symm

theorem refusal_withGate (he : ¬ e.1.IsMark) (gate : Gate) (c : Config Empty) :
    (c.withGate gate).refusal verdict e = c.refusal verdict e := by
  refine refusal_congr ?_
  rw [store_withGate he, Write.answer_map]

theorem after_withGate (he : ¬ e.1.IsMark) (gate : Gate) (c : Config Empty) :
    (c.withGate gate).after verdict e = (c.after verdict e).withGate gate := by
  unfold after
  rw [store_withGate he]
  rcases c.store verdict e.1 e.2 with _ | _ | _ <;> rfl

theorem foldl_after_withGate {entries : List (OptionKey × Value)}
    (hentries : ∀ e ∈ entries, ¬ e.1.IsMark) (gate : Gate) (c : Config Empty) :
    entries.foldl (after verdict) (c.withGate gate) =
      (entries.foldl (after verdict) c).withGate gate := by
  induction entries generalizing c with
  | nil => rfl
  | cons e rest ih =>
    rw [List.foldl_cons, List.foldl_cons, after_withGate (hentries e List.mem_cons_self)]
    exact ih (fun e' he' => hentries e' (List.mem_cons_of_mem e he')) _

end Config

end Gate

end FlowControl
