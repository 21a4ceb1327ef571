import FlowControl.Proofs.Config.Apart
import FlowControl.Proofs.Config.Batch
import Mathlib.Data.List.Basic
import Mathlib.Data.List.Pairwise

/-!
# The entries of a batch, in any order

A batch is applied by option number, but nobody can tell: without water marks its entries are apart
from each other, so each of them is accepted or refused by what the configuration was like before
the batch (`Config.refusal`), and what the accepted ones do (`Config.after`) does not depend on
their order. `Quiet.setEntries_eq` says so of the entries as a batch goes through them, and
`Quiet.setEach_perm` compares a batch with a client that sets the same options one at a time, in an
order of its own.
-/

set_option autoImplicit false

namespace FlowControl

open Write (answer ApartAt)

/-! ## One entry -/

namespace Config

section Entry

variable {κ : Type} [OptionLayer κ]

/-- How an entry is refused, if it is. An option that is not claimed is one that is not
supported. -/
def refusal (verdict : Nat → Value → Option String) (c : Config κ) (e : OptionKey × Value) :
    Option Rejection :=
  match c.store verdict e.1 e.2 with
  | none => some ⟨e.1, .unsupportedOption e.1.name⟩
  | some (.error error) => some ⟨e.1, error⟩
  | some (.ok _) => none

/-- The configuration after an entry. -/
def after (verdict : Nat → Value → Option String) (c : Config κ) (e : OptionKey × Value) :
    Config κ :=
  match c.store verdict e.1 e.2 with
  | some (.ok c') => c'
  | _ => c

end Entry

variable {verdict : Nat → Value → Option String} {c c' : Config Empty} {e e' : OptionKey × Value}

theorem after_of_store (h : c.store verdict e.1 e.2 = some (.ok c')) : c.after verdict e = c' := by
  rw [after, h]

theorem after_of_not_store (h : ∀ c', c.store verdict e.1 e.2 ≠ some (.ok c')) :
    c.after verdict e = c := by
  unfold after
  split
  · rename_i c' hstore
    exact absurd hstore (h c')
  · rfl

theorem refusal_congr
    (h : answer (c'.store verdict e.1 e.2) = answer (c.store verdict e.1 e.2)) :
    c'.refusal verdict e = c.refusal verdict e := by
  unfold refusal
  rcases hc : c.store verdict e.1 e.2 with _ | error | _
  · rw [hc, Write.answer_none, Write.answer_eq_none_iff] at h
    rw [h]
  · rw [hc, Write.answer_error, Write.answer_eq_error_iff] at h
    rw [h]
  · rw [hc, Write.answer_ok, Write.answer_eq_ok_iff] at h
    obtain ⟨_, h⟩ := h
    rw [h]

theorem answer_store_after (he : ¬ e.1.IsMark) (he' : ¬ e'.1.IsMark) (hne : e'.1.id ≠ e.1.id)
    (c : Config Empty) : answer ((c.after verdict e).store verdict e'.1 e'.2) =
      answer (c.store verdict e'.1 e'.2) := by
  by_cases h : ∃ c', c.store verdict e.1 e.2 = some (.ok c')
  · obtain ⟨c', h⟩ := h
    rw [after_of_store h]
    exact (apart_store he he' hne c).answered h
  · rw [after_of_not_store (not_exists.1 h)]

/-- An entry that comes earlier does not change whether a later one is refused. -/
theorem refusal_after (he : ¬ e.1.IsMark) (he' : ¬ e'.1.IsMark) (hne : e'.1.id ≠ e.1.id)
    (c : Config Empty) : (c.after verdict e).refusal verdict e' = c.refusal verdict e' :=
  refusal_congr (answer_store_after he he' hne c)

theorem after_comm_of_not_store (he : ¬ e.1.IsMark) (he' : ¬ e'.1.IsMark) (hne : e.1.id ≠ e'.1.id)
    (h : ∀ c', c.store verdict e.1 e.2 ≠ some (.ok c')) :
    (c.after verdict e).after verdict e' = (c.after verdict e').after verdict e := by
  rw [after_of_not_store h]
  refine (after_of_not_store ?_).symm
  intro c' hc'
  have hanswer : answer ((c.after verdict e').store verdict e.1 e.2) =
      answer (c.store verdict e.1 e.2) := answer_store_after he' he hne c
  rw [hc', Write.answer_ok] at hanswer
  obtain ⟨c'', hc''⟩ := Write.answer_eq_ok_iff.1 hanswer.symm
  exact h c'' hc''

theorem after_comm (he : ¬ e.1.IsMark) (he' : ¬ e'.1.IsMark) (hne : e'.1.id ≠ e.1.id)
    (c : Config Empty) :
    (c.after verdict e).after verdict e' = (c.after verdict e').after verdict e := by
  by_cases h : ∃ c₁, c.store verdict e.1 e.2 = some (.ok c₁)
  · by_cases h' : ∃ c₂, c.store verdict e'.1 e'.2 = some (.ok c₂)
    · -- Both are accepted, and each is still accepted after the other.
      obtain ⟨c₁, h⟩ := h
      obtain ⟨c₂, h'⟩ := h'
      have happart : ApartAt (store verdict e.1 e.2) (store verdict e'.1 e'.2) c :=
        apart_store he he' hne c
      have happart' : ApartAt (store verdict e'.1 e'.2) (store verdict e.1 e.2) c :=
        apart_store he' he hne.symm c
      obtain ⟨d, hd⟩ : ∃ d, c₁.store verdict e'.1 e'.2 = some (.ok d) :=
        Write.answer_eq_ok_iff.1 ((happart.answered h).trans (by rw [h', Write.answer_ok]))
      obtain ⟨d', hd'⟩ : ∃ d', c₂.store verdict e.1 e.2 = some (.ok d') :=
        Write.answer_eq_ok_iff.1 ((happart'.answered h').trans (by rw [h, Write.answer_ok]))
      rw [after_of_store h, after_of_store h', after_of_store hd, after_of_store hd']
      exact happart.swap h h' hd hd'
    · exact (after_comm_of_not_store he' he hne (not_exists.1 h')).symm
  · exact after_comm_of_not_store he he' hne.symm (not_exists.1 h)

end Config

/-! ## Many entries -/

/-- The entries are about different options, none of them about the water marks. -/
structure Separate (entries : List (OptionKey × Value)) : Prop where
  distinct : entries.Pairwise fun e e' => e.1.id ≠ e'.1.id
  notMark : ∀ e ∈ entries, ¬ e.1.IsMark

theorem Separate.perm {entries entries' : List (OptionKey × Value)} (h : Separate entries)
    (hperm : entries'.Perm entries) : Separate entries' where
  distinct := (hperm.pairwise_iff fun hne => Ne.symm hne).2 h.distinct
  notMark e he := h.notMark e (hperm.mem_iff.1 he)

theorem Separate.tail {e : OptionKey × Value} {rest : List (OptionKey × Value)}
    (h : Separate (e :: rest)) : Separate rest :=
  ⟨h.distinct.of_cons, fun e' he' => h.notMark e' (List.mem_cons_of_mem e he')⟩

theorem Separate.refusal_after {verdict : Nat → Value → Option String} {e e' : OptionKey × Value}
    {rest : List (OptionKey × Value)} (h : Separate (e :: rest)) (he' : e' ∈ rest)
    (c : Config Empty) : (c.after verdict e).refusal verdict e' = c.refusal verdict e' :=
  Config.refusal_after (h.notMark e List.mem_cons_self)
    (h.notMark e' (List.mem_cons_of_mem e he'))
    (List.rel_of_pairwise_cons h.distinct he').symm c

/-- In which order the entries come makes no difference to the configuration. -/
theorem Separate.foldl_after_perm {verdict : Nat → Value → Option String}
    {entries entries' : List (OptionKey × Value)} (h : Separate entries)
    (hperm : entries'.Perm entries) (c : Config Empty) :
    entries'.foldl (Config.after verdict) c = entries.foldl (Config.after verdict) c := by
  have hentries := h.perm hperm
  have : Std.Symm fun e e' : OptionKey × Value => e.1.id ≠ e'.1.id := ⟨fun _ _ hne => hne.symm⟩
  refine hperm.foldl_eq' ?_ c
  intro e he e' he' c
  by_cases heq : e' = e
  · rw [heq]
  · exact Config.after_comm (hentries.notMark e he) (hentries.notMark e' he')
      (hentries.distinct.forall he' he heq) c

namespace Host

variable {κ σ : Type}

/-- A batch that does not name the water marks asks nothing of them. -/
theorem applyMarks_of_not_hasMark {m : OptionMap} (hm : ¬ m.HasMark) (h : Host κ σ) (s : σ) :
    h.applyMarks m s = (none, s) := by
  have hnone : ∀ k : OptionKey, k.IsMark → m.find? k = none := by
    intro k hk
    by_contra hsome
    obtain ⟨e, he, hid⟩ := OptionMap.contains_iff.1 (Option.isSome_iff_ne_none.2 hsome)
    exact hm ⟨e, he, (OptionKey.isMark_congr hid).2 hk⟩
  have hentry : ∀ {α : Type} (o : CoreOption) (read : Value → Option α), o.key.IsMark →
      typedEntry o read m = .ok none := fun o _ ho => by rw [typedEntry, hnone o.key ho]
  have hrequest : markRequest m = .ok none := by
    unfold markRequest
    rw [hentry .marks _ (by decide), hentry .highMark _ (by decide),
      hentry .lowMark _ (by decide)]
    rfl
  rw [applyMarks, hrequest]

variable [OptionLayer κ]

theorem trySetOptions_of_no_marks {m : OptionMap} (hm : ¬ m.HasMark) (h : Host κ σ) (s : σ) :
    h.trySetOptions m s = h.setEntries m.entries s := by
  unfold trySetOptions
  rw [applyMarks_of_not_hasMark hm, withoutMarks_of_not_hasMark hm]
  rfl

theorem setEntries_append (h : Host κ σ) (entries entries' : List (OptionKey × Value)) (s : σ) :
    h.setEntries (entries ++ entries') s =
      let first := h.setEntries entries s
      let others := h.setEntries entries' first.2
      (first.1 ++ others.1, others.2) := by
  induction entries generalizing s with
  | nil => rfl
  | cons e rest ih => simp only [List.cons_append, setEntries, ih, List.append_assoc]

/-- Set options one at a time, and keep the answers. -/
def setEach (h : Host κ σ) : List (OptionKey × Value) → σ →
    List (OptionKey × Except ConfigError Bool) × σ
  | [], s => ([], s)
  | e :: rest, s =>
    let first := h.setOption e.1 e.2 s
    let others := h.setEach rest first.2
    ((e.1, first.1) :: others.1, others.2)

/-- The refusal in an answer. That no layer claims the option is one, too. -/
def refused? : OptionKey × Except ConfigError Bool → Option Rejection
  | (_, .ok true) => none
  | (k, .ok false) => some ⟨k, .unsupportedOption k.name⟩
  | (k, .error e) => some ⟨k, e⟩

theorem setEntry_eq (h : Host κ σ) (e : OptionKey × Value) (s : σ) :
    h.setEntry e s = (refused? (e.1, (h.setOption e.1 e.2 s).1), (h.setOption e.1 e.2 s).2) := by
  unfold setEntry
  rcases h.setOption e.1 e.2 s with ⟨_ | _ | _, s'⟩ <;> rfl

/-- A batch that comes to its entries does with them what a client does that sets them one at a
time. -/
theorem setEntries_eq_setEach (h : Host κ σ) (entries : List (OptionKey × Value)) (s : σ) :
    h.setEntries entries s =
      ((h.setEach entries s).1.filterMap refused?, (h.setEach entries s).2) := by
  induction entries generalizing s with
  | nil => rfl
  | cons e rest ih =>
    simp only [setEntries, setEach, setEntry_eq, ih]
    cases hrefused : refused? (e.1, (h.setOption e.1 e.2 s).1) with
    | none => rw [List.filterMap_cons_none hrefused]; rfl
    | some r => rw [List.filterMap_cons_some hrefused]; rfl

end Host

/-! ## The result -/

namespace Quiet

variable (verdict : Nat → Value → Option String)

theorem setEntry_config {κ : Type} [OptionLayer κ] (e : OptionKey × Value) (s : Quiet κ) :
    ((host verdict).setEntry e s).1 = s.config.refusal verdict e ∧
      ((host verdict).setEntry e s).2.config = s.config.after verdict e := by
  rw [Host.setEntry_eq]
  rcases hout : (host verdict).setOption e.1 e.2 s with ⟨r, s'⟩
  rcases setOption_cases verdict hout with
    ⟨rfl, hstore⟩ | ⟨rfl, hconfig, hstore⟩ | ⟨error, rfl, hconfig, hstore⟩
  · simp only [Config.refusal, Config.after, hstore, Host.refused?, and_self]
  · simp only [Config.refusal, Config.after, hstore, Host.refused?, hconfig, and_self]
  · simp only [Config.refusal, Config.after, hstore, Host.refused?, hconfig, and_self]

/-- Each entry is refused, or not, by what the configuration was like at the beginning. -/
theorem setEntries_eq {entries : List (OptionKey × Value)} (h : Separate entries)
    (s : Quiet Empty) :
    ((host verdict).setEntries entries s).1 = entries.filterMap (s.config.refusal verdict) ∧
      ((host verdict).setEntries entries s).2.config =
        entries.foldl (Config.after verdict) s.config := by
  induction entries generalizing s with
  | nil => exact ⟨rfl, rfl⟩
  | cons e rest ih =>
    obtain ⟨hrefusal, hafter⟩ := setEntry_config verdict e s
    obtain ⟨hothers, hconfig⟩ := ih h.tail ((host verdict).setEntry e s).2
    have hsame : rest.filterMap ((s.config.after verdict e).refusal verdict) =
        rest.filterMap (s.config.refusal verdict) :=
      List.filterMap_congr fun e' he' => h.refusal_after he' s.config
    rw [hafter] at hothers hconfig
    refine ⟨?_, hconfig⟩
    show ((host verdict).setEntry e s).1.toList ++ _ = _
    rw [hothers, hrefusal, hsame]
    cases hr : s.config.refusal verdict e with
    | none => rw [List.filterMap_cons_none hr]; rfl
    | some r => rw [List.filterMap_cons_some hr]; rfl

/-- A batch without water marks, and a client that sets the same options one at a time in an order
of its own: they leave the same configuration, and the same entries are refused for the same
reasons. It does not matter whether the values have the right types, nor what the configuration is
like. -/
theorem setEach_perm {batch : OptionMap}
    (hdistinct : batch.entries.Pairwise fun e e' => e.1.id ≠ e'.1.id) (hmarks : ¬ batch.HasMark)
    {entries : List (OptionKey × Value)} (hperm : entries.Perm batch.entries) (s : Quiet Empty) :
    let each := (host verdict).setEach entries s
    let whole := (host verdict).trySetOptions batch s
    each.2.config = whole.2.config ∧ (each.1.filterMap Host.refused?).Perm whole.1 := by
  intro each whole
  have hbatch : Separate batch.entries := ⟨hdistinct, fun e he hmark => hmarks ⟨e, he, hmark⟩⟩
  have hwhole : whole = (host verdict).setEntries batch.entries s :=
    Host.trySetOptions_of_no_marks hmarks _ s
  obtain ⟨hrefusedWhole, hconfigWhole⟩ := setEntries_eq verdict hbatch s
  obtain ⟨hrefused, hconfig⟩ := setEntries_eq verdict (hbatch.perm hperm) s
  rw [Host.setEntries_eq_setEach] at hrefused hconfig
  rw [hwhole]
  constructor
  · calc each.2.config
      _ = entries.foldl (Config.after verdict) s.config := hconfig
      _ = batch.entries.foldl (Config.after verdict) s.config :=
        hbatch.foldl_after_perm hperm s.config
      _ = _ := hconfigWhole.symm
  · rw [hrefusedWhole]
    show List.Perm (each.1.filterMap Host.refused?) _
    rw [show each.1.filterMap Host.refused? = _ from hrefused]
    exact hperm.filterMap _

/-- The read limit is set before the strategy in the one case and after it in the other; a hook
refuses the last option of the batch, which comes first when the order is reversed. -/
theorem setEach_perm_reversed :
    let rate : OptionKey := ⟨1024, "rate", .u32⟩
    let positive : Nat → Value → Option String :=
      fun _ v => if v = .u32 0 then some "rate must be positive" else none
    let s : Quiet Empty := ofConfig
      { Config.ofLayers [.socket .standard] with registry := ⟨[⟨rate, .u32 1, some 0⟩]⟩ }
    let batch : OptionMap := .ofList [(.maxMessagesPerRead, .i32 7),
      (.recvBufferSizing, .sizing (.fixed 512)), (.receiveBufferSize, .i32 4096), (rate, .u32 0)]
    let each := (host positive).setEach batch.entries.reverse s
    let whole := (host positive).trySetOptions batch s
    batch.entries.Pairwise (fun e e' => e.1.id ≠ e'.1.id) ∧ ¬ batch.HasMark ∧
      each.2.config = whole.2.config ∧ (each.1.filterMap Host.refused?).Perm whole.1 ∧
      whole.1 = [⟨rate, .illegalArgument "rate" "rate must be positive"⟩] ∧
      whole.2.config.core.handle.limit = 7 ∧ whole.2.config.core.handle.nextCapacity = 512 := by
  intro rate positive s batch each whole
  have hdistinct : batch.entries.Pairwise fun e e' => e.1.id ≠ e'.1.id := by decide
  have hmarks : ¬ batch.HasMark := by
    unfold OptionMap.HasMark
    decide
  obtain ⟨hconfig, hrefused⟩ :=
    setEach_perm positive hdistinct hmarks (List.reverse_perm batch.entries) s
  exact ⟨hdistinct, hmarks, hconfig, hrefused, by decide +kernel, by decide +kernel,
    by decide +kernel⟩

end Quiet

end FlowControl
