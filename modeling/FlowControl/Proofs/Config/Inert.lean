import FlowControl.Config.Builder
import FlowControl.Proofs.Config.Mistyped
import FlowControl.Proofs.Option.Map

/-!
# Batches with values of a wrong type

Most mistyped entries of a batch might as well not be there, but for their refusals (`Inert`). With
the water marks it is different. They are read from the batch all three together, and the first
entry with a value of a wrong type ends that: the other entries for the marks, whatever they say,
are neither applied nor judged.

`Quiet.trySetOptions_inert_iff` says for which batches this can be seen. The marks that the batch
names correctly must ask for nothing new, and only one of their entries may be wrong; else something
is lost.
-/

set_option autoImplicit false

namespace FlowControl

open Write (answer)

/-! ## The marks of a batch -/

namespace OptionMap

variable {m m' : OptionMap}

def filter (p : OptionKey × Value → Bool) (m : OptionMap) : OptionMap := ⟨m.entries.filter p⟩

theorem exists_entry_of_find? {k : OptionKey} {v : Value} (h : m.find? k = some v) :
    ∃ e ∈ m.entries, e.1.id = k.id ∧ e.2 = v := by
  obtain ⟨e, he, rfl⟩ := Option.map_eq_some_iff.1 h
  have hsame : e.1.same k = true := by simpa using List.find?_some he
  exact ⟨e, List.mem_of_find?_eq_some he, OptionKey.same_iff.1 hsame, rfl⟩

/-- A look-up does not notice entries that are about other options. -/
theorem find?_filter {p : OptionKey × Value → Bool} {k : OptionKey}
    (h : ∀ e ∈ m.entries, e.1.id = k.id → p e = true) : (m.filter p).find? k = m.find? k := by
  unfold find? filter
  rw [List.find?_filter]
  refine congrArg _ (List.find?_congr ?_)
  intro e he
  by_cases hsame : e.1.same k
  · simp only [h e he (OptionKey.same_iff.1 hsame), hsame, and_self, decide_true]
  · simp only [hsame, Bool.false_eq_true, and_false, decide_false]

/-- The maps say the same about the water marks. -/
def SameMarks (m m' : OptionMap) : Prop := ∀ k : OptionKey, k.IsMark → m'.find? k = m.find? k

theorem SameMarks.targetLow (h : m.SameMarks m') (current : WaterMark) :
    m'.targetLow current = m.targetLow current := by
  unfold OptionMap.targetLow
  rw [h _ (by decide), h _ (by decide)]

theorem SameMarks.targetHigh (h : m.SameMarks m') (current : WaterMark) :
    m'.targetHigh current = m.targetHigh current := by
  unfold OptionMap.targetHigh
  rw [h _ (by decide), h _ (by decide)]

theorem SameMarks.contains (h : m.SameMarks m') {k : OptionKey} (hk : k.IsMark) :
    m'.contains k = m.contains k := by rw [OptionMap.contains, OptionMap.contains, h k hk]

theorem SameMarks.hasMark (h : m.SameMarks m') : m'.HasMark ↔ m.HasMark := by
  rw [hasMark_iff, hasMark_iff, h.contains (by decide), h.contains (by decide),
    h.contains (by decide)]

theorem SameMarks.markRequest (h : m.SameMarks m') : Host.markRequest m' = Host.markRequest m := by
  have hentry : ∀ {α : Type} (o : CoreOption) (read : Value → Option α), o.key.IsMark →
      Host.typedEntry o read m' = Host.typedEntry o read m := by
    intro α o read ho
    rw [Host.typedEntry, Host.typedEntry, h o.key ho]
  unfold Host.markRequest
  rw [hentry .marks _ (by decide), hentry .highMark _ (by decide), hentry .lowMark _ (by decide)]

theorem sameMarks_filter {p : OptionKey × Value → Bool}
    (h : ∀ e ∈ m.entries, e.1.IsMark → p e = true) : m.SameMarks (m.filter p) :=
  fun _ hk => find?_filter fun e he hid => h e he ((OptionKey.isMark_congr hid).2 hk)

/-- A batch without entries for the marks asks for those that there are. -/
theorem target_of_not_hasMark (h : ¬ m.HasMark) (current : WaterMark) :
    m.targetLow current = current.low ∧ m.targetHigh current = current.high := by
  have hnone : ∀ k : OptionKey, k.IsMark → m.find? k = none := by
    intro k hk
    by_contra hsome
    obtain ⟨e, he, hid⟩ := contains_iff.1 (Option.isSome_iff_ne_none.2 hsome)
    exact h ⟨e, he, (OptionKey.isMark_congr hid).2 hk⟩
  unfold targetLow targetHigh
  rw [hnone _ (by decide), hnone _ (by decide), hnone _ (by decide)]
  exact ⟨rfl, rfl⟩

end OptionMap

namespace Host

theorem withoutMarks_entries (m : OptionMap) :
    (withoutMarks m).entries = m.entries.filter fun e => !decide e.1.IsMark := by
  simp only [withoutMarks, OptionMap.erase, List.filter_filter]
  refine List.filter_congr ?_
  intro e _
  rw [Bool.eq_iff_iff, Bool.not_eq_true' (decide _), decide_eq_false_iff_not]
  simp only [Bool.and_eq_true, Bool.not_eq_true', OptionKey.same, beq_eq_false_iff_ne,
    OptionKey.IsMark, OptionKey.NamesHigh, OptionKey.NamesLow, CoreOption.key]
  tauto

/-- An entry that is read as a value of its option's type has such a value, or is refused. -/
theorem typedEntry_cases {α : Type} {o : CoreOption} {wrap : α → Value}
    (hwrap : ∀ v : Value, v.type = o.key.type → ∃ a, v = wrap a) (m : OptionMap) :
    (∃ entry : Option α, (∀ v, m.find? o.key = some v → v.type = o.key.type) ∧
      ∀ read, (∀ a, read (wrap a) = some a) → typedEntry o read m = .ok entry) ∨
    ∃ v, m.find? o.key = some v ∧ v.type ≠ o.key.type ∧
      ∀ read : Value → Option α, read v = none →
        typedEntry o read m = .error (blame (o.key, v)) := by
  unfold typedEntry
  cases hfind : m.find? o.key with
  | none => exact .inl ⟨none, nofun, fun _ _ => rfl⟩
  | some v =>
    by_cases htype : v.type = o.key.type
    · obtain ⟨a, rfl⟩ := hwrap v htype
      refine .inl ⟨some a, ?_, ?_⟩
      · rintro _ ⟨rfl⟩
        exact htype
      · intro read hread
        simp only [hread a]
    · refine .inr ⟨v, rfl, htype, ?_⟩
      intro read hread
      simp only [hread]
      rfl

/-- Either all entries for the marks have values of the right types, or one that has not is refused
and nothing is asked of the marks. -/
theorem markRequest_cases (m : OptionMap) :
    (∃ request, markRequest m = .ok request ∧ ∀ o : CoreOption, o.key.IsMark → ∀ v,
      m.find? o.key = some v → v.type = o.key.type) ∨
    ∃ o : CoreOption, o.key.IsMark ∧ ∃ v, m.find? o.key = some v ∧ v.type ≠ o.key.type ∧
      markRequest m = .error (blame (o.key, v)) := by
  have hmarks : ∀ v : Value, v.type = CoreOption.marks.key.type → ∃ a, v = .waterMark a := by
    intro v hv
    cases v with
    | waterMark marks => exact ⟨marks, rfl⟩
    | _ => cases hv
  have hword : ∀ v : Value, v.type = .u32 → ∃ n, v = .u32 n := by
    intro v hv
    cases v with
    | u32 n => exact ⟨n, rfl⟩
    | _ => cases hv
  unfold markRequest
  rcases typedEntry_cases hmarks m with ⟨pair, hpairType, hpair⟩ | ⟨v, hv, hne, herror⟩
  · rw [hpair _ fun _ => rfl]
    rcases typedEntry_cases (o := .highMark) hword m with
      ⟨high, hhighType, hhigh⟩ | ⟨v, hv, hne, herror⟩
    · rw [hhigh _ fun _ => rfl]
      rcases typedEntry_cases (o := .lowMark) hword m with
        ⟨low, hlowType, hlow⟩ | ⟨v, hv, hne, herror⟩
      · rw [hlow _ fun _ => rfl]
        have htyped : ∀ o : CoreOption, o.key.IsMark → ∀ v, m.find? o.key = some v →
            v.type = o.key.type := by
          intro o ho
          cases o with
          | highMark => exact hhighType
          | lowMark => exact hlowType
          | marks => exact hpairType
          | _ => exact absurd ho (by decide)
        left
        by_cases hnone : (pair.isNone && high.isNone && low.isNone) = true
        · exact ⟨none, if_pos hnone, htyped⟩
        · exact ⟨_, if_neg hnone, htyped⟩
      · refine .inr ⟨.lowMark, by decide, v, hv, hne, ?_⟩
        rw [herror _ (by cases v <;> first | rfl | exact absurd rfl hne)]
        rfl
    · refine .inr ⟨.highMark, by decide, v, hv, hne, ?_⟩
      rw [herror _ (by cases v <;> first | rfl | exact absurd rfl hne)]
      rfl
  · refine .inr ⟨.marks, by decide, v, hv, hne, ?_⟩
    rw [herror _ (by cases v <;> first | rfl | exact absurd rfl hne)]
    rfl

end Host

/-! ## The result -/

theorem exists_coreOption_of_isMark {k : OptionKey} (hk : k.IsMark) :
    ∃ o : CoreOption, o.key.IsMark ∧ o.key.id = k.id := by
  rcases hk with (h | h) | h | h
  · exact ⟨.highMark, by decide, h.symm⟩
  · exact ⟨.marks, by decide, h.symm⟩
  · exact ⟨.lowMark, by decide, h.symm⟩
  · exact ⟨.marks, by decide, h.symm⟩

/-- The core claims the options of the water marks, so that no configuration is without them. -/
theorem Config.claims_of_isMark {k : OptionKey} (hk : k.IsMark) (c : Config Empty) :
    c.claims k := by
  have hcore : c.claimsAt k .core := by
    obtain ⟨o, -, hid⟩ := exists_coreOption_of_isMark hk
    refine List.find?_isSome.2 ⟨o, ?_, OptionKey.same_iff.2 hid⟩
    cases o <;> decide
  exact List.any_eq_true.2 ⟨.core, List.mem_cons_self, hcore⟩

/-- What is left out of a batch makes no difference but for its refusals: the configuration becomes
the same, and the refusals are those without it and one for each option that was left out. -/
structure Inert (out without : List Rejection × Quiet Empty) (left : List OptionKey) : Prop where
  config : out.2.config = without.2.config
  rejections : ∃ blamed : List Rejection, (blamed.map (·.key)).Perm left ∧
    out.1.Perm (without.1 ++ blamed)

namespace Quiet

variable {t : OptionTable} {verdict : Nat → Value → Option String} {m : OptionMap}

theorem separate_withoutMarks (hm : m.Listed t) : Separate (Host.withoutMarks m).entries where
  distinct := (((hm.erase _).erase _).erase _).ordered.imp Nat.ne_of_lt
  notMark _ he := (Host.mem_withoutMarks.1 he).2

/-- A batch is its marks and its other entries. The others are judged as if there were no marks,
and what they do has nothing to do with the gate. -/
theorem trySetOptions_config (hm : m.Listed t) {s : Quiet Empty} {r : Option Rejection}
    {gate : Gate} (hr : ((host verdict).applyMarks m s).1 = r)
    (hgate : ((host verdict).applyMarks m s).2.config = s.config.withGate gate) :
    ((host verdict).trySetOptions m s).1 = r.toList ++
        (Host.withoutMarks m).entries.filterMap (s.config.refusal verdict) ∧
      ((host verdict).trySetOptions m s).2.config =
        ((Host.withoutMarks m).entries.foldl (Config.after verdict) s.config).withGate gate := by
  have hothers := separate_withoutMarks hm
  obtain ⟨s', hs', hout⟩ : ∃ s' : Quiet Empty, s'.config = s.config.withGate gate ∧
      (host verdict).trySetOptions m s =
        (r.toList ++ ((host verdict).setEntries (Host.withoutMarks m).entries s').1,
          ((host verdict).setEntries (Host.withoutMarks m).entries s').2) := by
    unfold Host.trySetOptions
    generalize (host verdict).applyMarks m s = marks at hr hgate ⊢
    obtain ⟨_ | rejection, s'⟩ := marks
    · cases hr
      exact ⟨s', hgate, rfl⟩
    · cases hr
      exact ⟨(host verdict).note (.marksRejected rejection.key.name rejection.error) s', hgate, rfl⟩
  obtain ⟨hanswer, hconfig⟩ := setEntries_eq verdict hothers s'
  rw [hout, hanswer, hconfig, hs', Config.foldl_after_withGate hothers.notMark]
  refine ⟨congrArg _ (List.filterMap_congr ?_), rfl⟩
  intro e he
  exact Config.refusal_withGate (hothers.notMark e he) gate s.config

/-- What is asked of the marks is dealt with as in a batch of nothing else. -/
theorem applyMarks_outcome_of_typed (ht : t.Coherent)
    (hm : ∀ e ∈ m.entries, e.1.IsMark → e.1 ∈ t.keys ∧ e.2.type = e.1.type) (s : Quiet Empty) :
    MarksOutcome m s ((host verdict).applyMarks m s) := by
  have hsame : m.SameMarks (m.filter fun e => decide e.1.IsMark) :=
    OptionMap.sameMarks_filter fun e _ he => decide_eq_true he
  have htyped : (m.filter fun e => decide e.1.IsMark).Typed t := by
    intro e he
    obtain ⟨hmem, hmark⟩ := List.mem_filter.1 he
    exact hm e hmem (of_decide_eq_true hmark)
  have hout := applyMarks_outcome ht (Hooks.discreet_judging verdict) htyped s
  rw [← host_eq_hostOf, Host.applyMarks, hsame.markRequest, ← Host.applyMarks] at hout
  generalize (host verdict).applyMarks m s = out at hout ⊢
  cases hout with
  | none hmark => exact .none (hsame.hasMark.not.1 hmark)
  | applied marks s' hmark hlow hhigh halike hgate htold =>
    rw [hsame.targetLow] at hlow
    rw [hsame.targetHigh] at hhigh
    exact .applied marks s' (hsame.hasMark.1 hmark) hlow hhigh halike hgate htold
  | refused k hmark hk hcontains hlt =>
    rw [hsame.targetLow, hsame.targetHigh] at hlt ⊢
    rw [hsame.contains hk] at hcontains
    exact .refused k (hsame.hasMark.1 hmark) hk hcontains hlt

end Quiet

namespace Config

/-- The batch without its mistyped entries. -/
def kept (c : Config Empty) (m : OptionMap) : OptionMap := m.filter fun e => !c.mistyped e

/-- The mistyped entries of a batch. -/
def leftOut (c : Config Empty) (m : OptionMap) : List (OptionKey × Value) :=
  m.entries.filter c.mistyped

/-- Those of them that are about the water marks. -/
def wrongMarks (c : Config Empty) (m : OptionMap) : List (OptionKey × Value) :=
  (c.leftOut m).filter fun e => decide e.1.IsMark

variable {t : OptionTable} {m : OptionMap} {c : Config Empty}

theorem listed_kept (hm : m.Listed t) (c : Config Empty) : (c.kept m).Listed t where
  ordered := hm.ordered.filter _
  known e he := hm.known e (List.mem_filter.1 he).1

/-- The marks that are kept have values of their types. -/
theorem typed_marks_kept (hm : m.Listed t) (c : Config Empty) :
    ∀ e ∈ (c.kept m).entries, e.1.IsMark → e.1 ∈ t.keys ∧ e.2.type = e.1.type := by
  intro e he hmark
  obtain ⟨hmem, hkept⟩ := List.mem_filter.1 he
  refine ⟨hm.known e hmem, ?_⟩
  simpa [mistyped, claims_of_isMark hmark c] using hkept

theorem mem_wrongMarks {e : OptionKey × Value} :
    e ∈ c.wrongMarks m ↔ e ∈ m.entries ∧ e.1.IsMark ∧ e.2.type ≠ e.1.type := by
  simp only [wrongMarks, leftOut, List.mem_filter, decide_eq_true_eq]
  constructor
  · rintro ⟨⟨hmem, hmistyped⟩, hmark⟩
    exact ⟨hmem, hmark, type_ne_of_mistyped hmistyped⟩
  · rintro ⟨hmem, hmark, htype⟩
    refine ⟨⟨hmem, ?_⟩, hmark⟩
    simp [mistyped, claims_of_isMark hmark c, htype]

theorem withoutMarks_kept (c : Config Empty) (m : OptionMap) :
    (Host.withoutMarks (c.kept m)).entries =
      (Host.withoutMarks m).entries.filter fun e => !c.mistyped e := by
  simp only [Host.withoutMarks_entries, kept, OptionMap.filter, List.filter_filter, Bool.and_comm]

/-- What is left out, sorted into marks and others. -/
theorem leftOut_perm (c : Config Empty) (m : OptionMap) :
    (c.wrongMarks m ++ (Host.withoutMarks m).entries.filter c.mistyped).Perm (c.leftOut m) := by
  have hothers : (Host.withoutMarks m).entries.filter c.mistyped =
      (c.leftOut m).filter fun e => !decide e.1.IsMark := by
    simp only [Host.withoutMarks_entries, leftOut, List.filter_filter, Bool.and_comm]
  rw [hothers]
  exact List.filter_append_perm _ _

theorem sameMarks_kept (h : c.wrongMarks m = []) : m.SameMarks (c.kept m) := by
  refine OptionMap.sameMarks_filter ?_
  intro e he hmark
  rw [Bool.not_eq_true', ← Bool.not_eq_true]
  intro hmistyped
  have hmem : e ∈ c.wrongMarks m := mem_wrongMarks.2 ⟨he, hmark, type_ne_of_mistyped hmistyped⟩
  rw [h] at hmem
  cases hmem

end Config

namespace Quiet

variable {t : OptionTable} {verdict : Nat → Value → Option String} {m : OptionMap}

/-- One mistyped entry for the marks is enough: it is refused, and the marks are as before. -/
theorem applyMarks_of_wrongMarks (ht : t.Coherent) (hm : m.Listed t) {s : Quiet Empty}
    (h : s.config.wrongMarks m ≠ []) :
    ∃ e ∈ s.config.wrongMarks m, (host verdict).applyMarks m s = (some (blame e), s) := by
  rcases Host.markRequest_cases m with ⟨_, -, htyped⟩ | ⟨o, ho, v, hv, hne, herror⟩
  · obtain ⟨e, he⟩ := List.exists_mem_of_ne_nil _ h
    obtain ⟨hmem, hmark, htype⟩ := Config.mem_wrongMarks.1 he
    obtain ⟨o, ho, hid⟩ := exists_coreOption_of_isMark hmark
    have hkey : o.key = e.1 := ht.eq_builtIn (hm.known e hmem) o.key_mem_builtIns hid
    exact absurd (hkey ▸ htyped o ho e.2 (hkey ▸ hm.find?_eq hmem)) htype
  · obtain ⟨e, hmem, hid, rfl⟩ := OptionMap.exists_entry_of_find? hv
    have hkey : o.key = e.1 := ht.eq_builtIn (hm.known e hmem) o.key_mem_builtIns hid.symm
    rw [hkey] at ho hne herror
    refine ⟨e, Config.mem_wrongMarks.2 ⟨hmem, ho, hne⟩, ?_⟩
    rw [Host.applyMarks, herror]

/-- Applying the marks of a batch, told by what it refuses and by the gate afterwards. -/
theorem MarksOutcome.exists_gate {s : Quiet Empty} {out : Option Rejection × Quiet Empty}
    (h : MarksOutcome m s out) : ∃ gate, out.2.config = s.config.withGate gate := by
  cases h with
  | none | refused => exact ⟨s.config.core.gate, rfl⟩
  | applied _ _ _ _ _ halike _ _ => exact halike.config

theorem MarksOutcome.isMark {s : Quiet Empty} {out : Option Rejection × Quiet Empty}
    (h : MarksOutcome m s out) {r : Rejection} (hr : out.1 = some r) : r.key.IsMark := by
  cases h with
  | none | applied => cases hr
  | refused k _ hk => cases hr; exact hk

/-- If the gate is as before, and nothing is refused, the marks asked for are those in force. -/
theorem MarksOutcome.target_eq {s : Quiet Empty} {out : Option Rejection × Quiet Empty}
    (h : MarksOutcome m s out) (hnone : out.1 = Option.none)
    (hgate : out.2.config.core.gate = s.config.core.gate) :
    m.targetLow s.config.core.gate.marks = s.config.core.gate.marks.low ∧
      m.targetHigh s.config.core.gate.marks = s.config.core.gate.marks.high := by
  cases h with
  | none hmark => exact OptionMap.target_of_not_hasMark hmark _
  | refused => cases hnone
  | applied marks s' hmark hlow hhigh halike hafter htold =>
    have hmarks : marks = s.config.core.gate.marks := by
      have heq := congrArg Gate.marks (hafter.symm.trans hgate)
      rwa [Gate.withMarks_marks] at heq
    rw [← hlow, ← hhigh, hmarks]
    exact ⟨rfl, rfl⟩

theorem MarksOutcome.of_target_eq {s : Quiet Empty} {out : Option Rejection × Quiet Empty}
    (h : MarksOutcome m s out) (hsettled : s.config.core.gate.Settled)
    (hlow : m.targetLow s.config.core.gate.marks = s.config.core.gate.marks.low)
    (hhigh : m.targetHigh s.config.core.gate.marks = s.config.core.gate.marks.high) :
    out.1 = Option.none ∧ out.2.config = s.config := by
  cases h with
  | none => exact ⟨rfl, rfl⟩
  | refused k hmark hk hcontains hlt =>
    rw [hlow, hhigh] at hlt
    exact absurd hlt (UInt32.not_lt.2 s.config.core.gate.marks.low_le_high)
  | applied marks s' hmark hlow' hhigh' halike hafter htold =>
    have hmarks : marks = s.config.core.gate.marks := by
      rw [hlow] at hlow'
      rw [hhigh] at hhigh'
      cases marks
      cases hlow'
      cases hhigh'
      rfl
    have hgate : s.config.core.gate.withMarks marks = s.config.core.gate := by
      rw [hmarks]
      show (s.config.core.gate).settled = _
      rw [Gate.settled, (Gate.flipped?_eq_none_iff _).2 hsettled, Option.getD_none]
    obtain ⟨⟨gate, hconfig⟩, -⟩ := halike
    refine ⟨rfl, ?_⟩
    have hsame : gate = s.config.core.gate := by
      rw [← hgate, ← hafter, hconfig]
      rfl
    rw [hconfig, hsame]
    rfl

/-- Refusals of entries that are not about the marks are not about the marks. -/
theorem not_isMark_of_refusal {entries : List (OptionKey × Value)}
    (hentries : ∀ e ∈ entries, ¬ e.1.IsMark) {c : Config Empty} :
    ∀ r ∈ entries.filterMap (c.refusal verdict), ¬ r.key.IsMark := by
  intro r hr
  obtain ⟨e, he, hrefusal⟩ := List.mem_filterMap.1 hr
  have hkey : r.key = e.1 := by
    unfold Config.refusal at hrefusal
    split at hrefusal <;> cases hrefusal <;> rfl
  rw [hkey]
  exact hentries e he

/-- Among the refusals of a batch, those about the marks are that of the marks. -/
theorem filter_isMark_refusals {r? : Option Rejection} (hr : ∀ r ∈ r?, r.key.IsMark)
    {others : List Rejection} (hothers : ∀ r ∈ others, ¬ r.key.IsMark) :
    ((r?.toList ++ others).filter fun r => decide r.key.IsMark) = r?.toList := by
  have hnone : (others.filter fun r => decide r.key.IsMark) = [] := by
    simpa using hothers
  have hall : (r?.toList.filter fun r => decide r.key.IsMark) = r?.toList := by
    simpa using hr
  rw [List.filter_append, hall, hnone, List.append_nil]

/-- Since the other entries have nothing to do with the marks, leaving mistyped entries out makes no
difference but for their refusals exactly if that holds of the marks. -/
theorem inert_iff_marks (ht : t.Coherent) (hm : m.Listed t) {s : Quiet Empty}
    {r? r'? : Option Rejection} {gate gate' : Gate}
    (hr : ((host verdict).applyMarks m s).1 = r?)
    (hgate : ((host verdict).applyMarks m s).2.config = s.config.withGate gate)
    (hr' : ((host verdict).applyMarks (s.config.kept m) s).1 = r'?)
    (hgate' : ((host verdict).applyMarks (s.config.kept m) s).2.config = s.config.withGate gate')
    (hmark : ∀ r ∈ r?, r.key.IsMark) (hmark' : ∀ r ∈ r'?, r.key.IsMark) :
    Inert ((host verdict).trySetOptions m s) ((host verdict).trySetOptions (s.config.kept m) s)
        ((s.config.leftOut m).map (·.1)) ↔
      gate = gate' ∧ ∃ blamed : List Rejection,
        (blamed.map (·.key)).Perm ((s.config.wrongMarks m).map (·.1)) ∧
          r?.toList.Perm (r'?.toList ++ blamed) := by
  obtain ⟨hrefused, hconfig⟩ := trySetOptions_config hm hr hgate
  obtain ⟨hrefused', hconfig'⟩ :=
    trySetOptions_config (Config.listed_kept hm s.config) hr' hgate'
  have hleft := (Config.leftOut_perm s.config m).map (·.1)
  -- The other entries of the batch, with and without those that are left out.
  rw [Config.withoutMarks_kept] at hrefused' hconfig'
  have hothers := separate_withoutMarks hm
  have hkeys : ∀ e ∈ (Host.withoutMarks m).entries, e.1 ∈ t.keys :=
    fun e he => hm.known e (Host.mem_withoutMarks.1 he).1
  generalize (Host.withoutMarks m).entries = others at *
  rw [foldl_after_filter ht hkeys] at hconfig'
  constructor
  · rintro ⟨hsame, blamed, hblamed, hperm⟩
    rw [hconfig, hconfig'] at hsame
    refine ⟨congrArg (fun c : Config Empty => c.core.gate) hsame,
      blamed.filter fun r => decide r.key.IsMark, ?_, ?_⟩
    · have hmarks := hblamed.filter fun k => decide k.IsMark
      rwa [List.filter_map, List.filter_map] at hmarks
    · have hmarks := hperm.filter fun r => decide r.key.IsMark
      rw [hrefused, hrefused', List.filter_append (_ ++ _),
        filter_isMark_refusals hmark (not_isMark_of_refusal hothers.notMark),
        filter_isMark_refusals hmark'
          (not_isMark_of_refusal fun e he => hothers.notMark e (List.mem_filter.1 he).1)] at hmarks
      exact hmarks
  · rintro ⟨rfl, blamed, hblamed, hperm⟩
    refine ⟨hconfig.trans hconfig'.symm, blamed ++ (others.filter s.config.mistyped).map blame,
      ?_, ?_⟩
    · rw [List.map_append] at hleft ⊢
      rw [List.map_map]
      exact (hblamed.append_right _).trans hleft
    · rw [hrefused, hrefused', List.append_assoc]
      refine (hperm.append (filterMap_refusal_perm ht hkeys s.config)).trans ?_
      rw [List.append_assoc]
      exact (List.perm_append_comm_assoc blamed _ _).append_left _

/-- For which batches a mistyped entry makes no difference but for its refusal: either none of them
is about the water marks, or one is and the other entries for the marks ask for those in force. -/
theorem trySetOptions_inert_iff (requests : List OptionTable.Request)
    (verdict : Nat → Value → Option String) {batch : OptionMap}
    (hbatch : batch.Listed (.serve requests)) {s : Quiet Empty}
    (hsettled : s.config.core.gate.Settled) :
    let kept := s.config.kept batch
    let marks := s.config.core.gate.marks
    Inert ((host verdict).trySetOptions batch s) ((host verdict).trySetOptions kept s)
        ((s.config.leftOut batch).map (·.1)) ↔
      s.config.wrongMarks batch = [] ∨ ((s.config.wrongMarks batch).length = 1 ∧
        kept.targetLow marks = marks.low ∧ kept.targetHigh marks = marks.high) := by
  intro kept marks
  have ht := OptionTable.serve_coherent requests
  have houtcome : MarksOutcome kept s ((host verdict).applyMarks kept s) :=
    applyMarks_outcome_of_typed ht (Config.typed_marks_kept hbatch s.config) s
  have hmark : ∀ r ∈ ((host verdict).applyMarks kept s).1, r.key.IsMark :=
    fun _ hr => houtcome.isMark hr
  obtain ⟨gate, hgate⟩ := houtcome.exists_gate
  by_cases hwrong : s.config.wrongMarks batch = []
  · -- Nothing that is left out is about the marks, so the same is asked of them.
    refine iff_of_true ?_ (.inl hwrong)
    have happly : (host verdict).applyMarks batch s = (host verdict).applyMarks kept s := by
      rw [Host.applyMarks, Host.applyMarks, (Config.sameMarks_kept hwrong).markRequest]
    refine (inert_iff_marks ht hbatch (congrArg (·.1) happly) (by rw [happly]; exact hgate) rfl
      hgate hmark hmark).2 ⟨rfl, [], ?_, ?_⟩
    · rw [hwrong]
      exact .refl _
    · rw [List.append_nil]
  · obtain ⟨e, he, happly⟩ : ∃ e ∈ s.config.wrongMarks batch,
        (host verdict).applyMarks batch s = (some (blame e), s) :=
      applyMarks_of_wrongMarks ht hbatch hwrong
    have hblame : ∀ r ∈ some (blame e), r.key.IsMark := by
      rintro _ ⟨rfl⟩
      exact (Config.mem_wrongMarks.1 he).2.1
    rw [inert_iff_marks ht hbatch (by rw [happly]) (by rw [happly]; rfl) rfl hgate hblame hmark]
    constructor
    · -- One refusal stands for all the entries about the marks.
      rintro ⟨hsame, blamed, hblamed, hperm⟩
      right
      have hblamedLength : blamed.length = (s.config.wrongMarks batch).length := by
        simpa using hblamed.length_eq
      have hsum : 1 = ((host verdict).applyMarks kept s).1.toList.length + blamed.length := by
        simpa using hperm.length_eq
      have hpos : 0 < (s.config.wrongMarks batch).length := List.length_pos_of_mem he
      have hnone : ((host verdict).applyMarks kept s).1 = none := by
        cases hr : ((host verdict).applyMarks kept s).1 with
        | none => rfl
        | some r =>
          rw [hr, Option.toList_some, List.length_singleton] at hsum
          omega
      refine ⟨by omega, houtcome.target_eq hnone ?_⟩
      rw [hgate, ← hsame]
      rfl
    · rintro (hnil | ⟨hone, hlow, hhigh⟩)
      · exact absurd hnil hwrong
      · obtain ⟨hnone, hself⟩ := houtcome.of_target_eq hsettled hlow hhigh
        obtain ⟨e', he'⟩ := List.length_eq_one_iff.1 hone
        rw [he', List.mem_singleton] at he
        refine ⟨congrArg (fun c : Config Empty => c.core.gate) (hself.symm.trans hgate),
          [blame e], ?_, ?_⟩
        · rw [he', he]
          exact .refl _
        · rw [hnone]
          exact .refl _

/-- A mistyped count beside marks that are in order: only the count is refused, and the marks are
applied as if it were not there. -/
theorem trySetOptions_inert_spinCount :
    let s : Quiet Empty := ofConfig .standard
    let batch : OptionMap := .ofList [(.writeSpinCount, .bool true),
      (.writeBufferHighWaterMark, .u32 4096), (.writeBufferLowWaterMark, .u32 1024)]
    let out := (host fun _ _ => none).trySetOptions batch s
    let kept := (host fun _ _ => none).trySetOptions (s.config.kept batch) s
    batch.Listed (.serve []) ∧ s.config.core.gate.Settled ∧
      Inert out kept [.writeSpinCount] ∧ out.2.config.core.gate.marks.low = 1024 := by
  intro s batch out kept
  have hlisted : batch.Listed (.serve []) := OptionMap.Listed.extend .empty (by decide)
  have hsettled : s.config.core.gate.Settled := by decide
  exact ⟨hlisted, hsettled,
    (trySetOptions_inert_iff [] (fun _ _ => none) hlisted hsettled).2 (.inl (by decide)),
    by decide +kernel⟩

/-- A mistyped high mark beside a low mark that is in order: the low mark would be applied if the
high mark were not there, but as it is, it gets lost without being refused. -/
theorem not_inert_lowMark :
    let s : Quiet Empty := ofConfig .standard
    let batch : OptionMap := .ofList
      [(.writeBufferHighWaterMark, .i32 5), (.writeBufferLowWaterMark, .u32 1024)]
    let out := (host fun _ _ => none).trySetOptions batch s
    let kept := (host fun _ _ => none).trySetOptions (s.config.kept batch) s
    ({} : Builder Empty).build = .ok s.config ∧
      s.config.leftOut batch = [(.writeBufferHighWaterMark, .i32 5)] ∧
      out.1 = [blame (.writeBufferHighWaterMark, .i32 5)] ∧
      out.2.config.core.gate.marks.low = 32768 ∧ kept.2.config.core.gate.marks.low = 1024 ∧
      ¬ Inert out kept ((s.config.leftOut batch).map (·.1)) := by
  intro s batch out kept
  have hout : out.2.config.core.gate.marks.low = 32768 := by decide +kernel
  have hkept : kept.2.config.core.gate.marks.low = 1024 := by decide +kernel
  refine ⟨by rfl, by decide, by decide +kernel, hout, hkept, ?_⟩
  intro hinert
  rw [hinert.config, hkept] at hout
  exact absurd hout (by decide)

end Quiet

end FlowControl
