import FlowControl.Proofs.Config.Discreet
import FlowControl.Proofs.Option.Table

/-!
# The water marks of a batch

A batch may name the water marks in three entries: the pair, the high mark and the low mark. They
are not applied one by one. The batch is first read for the marks that it asks for
(`OptionMap.targetLow`, `OptionMap.targetHigh`); these are judged once, against each other, and put
into the gate together. So no intermediate pair can be refused, and none can flip the signal.

`Quiet.trySetOptions_marks` is the result: the marks as a whole are accepted or refused, and the
other entries of the batch are treated as if there were no marks in it.
-/

set_option autoImplicit false

namespace FlowControl

/-! ## What a batch asks for -/

namespace OptionMap

/-- The entries are about options of the table and have values of their types. -/
def Typed (t : OptionTable) (m : OptionMap) : Prop :=
  ∀ e ∈ m.entries, e.1 ∈ t.keys ∧ e.2.type = e.1.type

def HasMark (m : OptionMap) : Prop := ∃ e ∈ m.entries, e.1.IsMark

/-- The low mark that a batch asks for: that of its own entry, else that of the pair, else the one
that there is. -/
def targetLow (current : WaterMark) (m : OptionMap) : UInt32 :=
  match m.find? .writeBufferLowWaterMark, m.find? .writeBufferWaterMark with
  | some (.u32 low), _ => low
  | _, some (.waterMark pair) => pair.low
  | _, _ => current.low

/-- The high mark that a batch asks for. -/
def targetHigh (current : WaterMark) (m : OptionMap) : UInt32 :=
  match m.find? .writeBufferHighWaterMark, m.find? .writeBufferWaterMark with
  | some (.u32 high), _ => high
  | _, some (.waterMark pair) => pair.high
  | _, _ => current.high

theorem contains_iff {k : OptionKey} {m : OptionMap} :
    m.contains k ↔ ∃ e ∈ m.entries, e.1.id = k.id := by
  simp only [contains, find?, Option.isSome_map, List.find?_isSome, OptionKey.same_iff]

theorem hasMark_iff {m : OptionMap} :
    m.HasMark ↔ m.contains .writeBufferWaterMark ∨ m.contains .writeBufferHighWaterMark ∨
      m.contains .writeBufferLowWaterMark := by
  simp only [HasMark, contains_iff, OptionKey.IsMark, OptionKey.NamesHigh, OptionKey.NamesLow]
  constructor
  · rintro ⟨e, he, (h | h) | h | h⟩
    · exact .inr (.inl ⟨e, he, h⟩)
    · exact .inl ⟨e, he, h⟩
    · exact .inr (.inr ⟨e, he, h⟩)
    · exact .inl ⟨e, he, h⟩
  · rintro (⟨e, he, h⟩ | ⟨e, he, h⟩ | ⟨e, he, h⟩)
    · exact ⟨e, he, .inl (.inr h)⟩
    · exact ⟨e, he, .inl (.inl h)⟩
    · exact ⟨e, he, .inr (.inl h)⟩

variable {t : OptionTable} {m : OptionMap}

/-- An entry about a built-in option has a value of that option's type. -/
theorem Typed.type_of_find? (ht : t.Coherent) (hm : m.Typed t) {k : OptionKey}
    (hk : k ∈ OptionKey.builtIns) {v : Value} (h : m.find? k = some v) : v.type = k.type := by
  obtain ⟨e, he, rfl⟩ := Option.map_eq_some_iff.1 h
  obtain ⟨hkey, htype⟩ := hm e (List.mem_of_find?_eq_some he)
  have hsame : e.1.same k = true := by simpa using List.find?_some he
  have hid : e.1.id = k.id := OptionKey.same_iff.1 hsame
  rw [htype, ht.unique e.1 hkey k (ht.builtIn k hk) hid]

theorem Typed.u32_of_find? (ht : t.Coherent) (hm : m.Typed t) {k : OptionKey}
    (hk : k ∈ OptionKey.builtIns) (htype : k.type = .u32) {v : Value} (h : m.find? k = some v) :
    ∃ n, v = .u32 n := by
  have hv := hm.type_of_find? ht hk h
  rw [htype] at hv
  cases v with
  | u32 n => exact ⟨n, rfl⟩
  | _ => cases hv

theorem Typed.waterMark_of_find? (ht : t.Coherent) (hm : m.Typed t) {v : Value}
    (h : m.find? .writeBufferWaterMark = some v) : ∃ marks, v = .waterMark marks := by
  have hv := hm.type_of_find? ht (by decide) h
  cases v with
  | waterMark marks => exact ⟨marks, rfl⟩
  | _ => cases hv

end OptionMap

namespace Host

variable {t : OptionTable} {m : OptionMap}

theorem typedEntry_eq {α : Type} {o : CoreOption} {wrap : α → Value}
    (hfind : ∀ {v}, m.find? o.key = some v → ∃ a, v = wrap a) :
    ∃ entry : Option α, m.find? o.key = entry.map wrap ∧
      ∀ read : Value → Option α, (∀ a, read (wrap a) = some a) →
        typedEntry o read m = .ok entry := by
  unfold typedEntry
  cases h : m.find? o.key with
  | none => exact ⟨none, rfl, fun _ _ => rfl⟩
  | some v =>
    obtain ⟨a, rfl⟩ := hfind h
    refine ⟨some a, rfl, ?_⟩
    intro read hread
    simp only [hread]

/-- A batch with values of the right types asks for marks exactly if it has entries for them, and
then it asks for the target. The entry to blame is one of them. -/
theorem markRequest_of_typed (ht : t.Coherent) (hm : m.Typed t) :
    (¬ m.HasMark ∧ markRequest m = .ok none) ∨
      (m.HasMark ∧ ∃ request, markRequest m = .ok (some request) ∧
        (∀ current : WaterMark, request.low?.getD current.low = m.targetLow current ∧
          request.high?.getD current.high = m.targetHigh current) ∧
        request.culprit.IsMark ∧ m.contains request.culprit) := by
  obtain ⟨pair?, hpair, hpairEntry⟩ :=
    typedEntry_eq (o := .marks) fun h => hm.waterMark_of_find? ht h
  obtain ⟨high?, hhigh, hhighEntry⟩ :=
    typedEntry_eq (o := .highMark) fun h => hm.u32_of_find? ht (by decide) rfl h
  obtain ⟨low?, hlow, hlowEntry⟩ :=
    typedEntry_eq (o := .lowMark) fun h => hm.u32_of_find? ht (by decide) rfl h
  unfold markRequest
  rw [hpairEntry _ (fun _ => rfl), hhighEntry _ (fun _ => rfl), hlowEntry _ (fun _ => rfl),
    OptionMap.hasMark_iff]
  simp only [CoreOption.key] at hpair hhigh hlow
  have hmark : (m.contains .writeBufferWaterMark ∨ m.contains .writeBufferHighWaterMark ∨
      m.contains .writeBufferLowWaterMark) ↔
        ¬ (pair?.isNone && high?.isNone && low?.isNone) = true := by
    simp only [OptionMap.contains, hpair, hhigh, hlow]
    cases pair? <;> cases high? <;> cases low? <;> simp
  rw [hmark]
  by_cases hnone : (pair?.isNone && high?.isNone && low?.isNone) = true
  · exact .inl ⟨not_not_intro hnone, if_pos hnone⟩
  · refine .inr ⟨hnone, _, if_neg hnone, ?_, ?_, ?_⟩
    · intro current
      simp only [OptionMap.targetLow, OptionMap.targetHigh, hpair, hhigh, hlow]
      cases pair? <;> cases high? <;> cases low? <;> exact ⟨rfl, rfl⟩
    · dsimp only
      split
      · decide
      · split <;> decide
    · simp only [OptionMap.contains]
      cases high? with
      | some n => simp [CoreOption.key, hhigh]
      | none =>
        cases low? with
        | some n => simp [CoreOption.key, hlow]
        | none =>
          cases pair? with
          | some marks => simp [CoreOption.key, hpair]
          | none => exact absurd rfl hnone

/-! ## The entries that are left -/

theorem mem_withoutMarks {e : OptionKey × Value} :
    e ∈ (withoutMarks m).entries ↔ e ∈ m.entries ∧ ¬ e.1.IsMark := by
  simp only [withoutMarks, OptionMap.erase, List.mem_filter, Bool.not_eq_true', ← Bool.not_eq_true,
    OptionKey.same_iff, OptionKey.IsMark, OptionKey.NamesHigh, OptionKey.NamesLow, CoreOption.key]
  constructor
  · rintro ⟨⟨⟨he, hpair⟩, hhigh⟩, hlow⟩
    refine ⟨he, ?_⟩
    rintro ((h | h) | h | h)
    · exact hhigh h
    · exact hpair h
    · exact hlow h
    · exact hpair h
  · rintro ⟨he, hmark⟩
    exact ⟨⟨⟨he, fun h => hmark (.inl (.inr h))⟩, fun h => hmark (.inl (.inl h))⟩,
      fun h => hmark (.inr (.inl h))⟩

theorem not_hasMark_withoutMarks (m : OptionMap) : ¬ (withoutMarks m).HasMark := by
  rintro ⟨e, he, hmark⟩
  exact (mem_withoutMarks.1 he).2 hmark

theorem typed_withoutMarks (hm : m.Typed t) : (withoutMarks m).Typed t :=
  fun e he => hm e (mem_withoutMarks.1 he).1

theorem withoutMarks_of_not_hasMark (hm : ¬ m.HasMark) : withoutMarks m = m := by
  have herase : ∀ {k : OptionKey}, k.IsMark → m.erase k = m := by
    intro k hk
    refine congrArg OptionMap.mk (List.filter_eq_self.2 ?_)
    intro e he
    rw [Bool.not_eq_true', ← Bool.not_eq_true, OptionKey.same_iff]
    intro hid
    exact hm ⟨e, he, (OptionKey.isMark_congr hid).2 hk⟩
  rw [withoutMarks, herase (by decide), herase (by decide), herase (by decide)]

/-- A refused entry is reported with its own option. -/
theorem key_of_setEntry {κ σ : Type} [OptionLayer κ] {h : Host κ σ} {e : OptionKey × Value} {s : σ}
    {r : Rejection} (hr : (h.setEntry e s).1 = some r) : r.key = e.1 := by
  unfold setEntry at hr
  split at hr <;> cases hr <;> rfl

theorem key_of_mem_setEntries {κ σ : Type} [OptionLayer κ] {h : Host κ σ}
    {entries : List (OptionKey × Value)} {s : σ} {r : Rejection}
    (hr : r ∈ (h.setEntries entries s).1) : ∃ e ∈ entries, r.key = e.1 := by
  induction entries generalizing s with
  | nil => cases hr
  | cons e rest ih =>
    rcases List.mem_append.1 hr with hr | hr
    · exact ⟨e, List.mem_cons_self, key_of_setEntry (Option.mem_toList.1 hr)⟩
    · obtain ⟨e', he', hkey⟩ := ih hr
      exact ⟨e', List.mem_cons_of_mem _ he', hkey⟩

end Host

/-! ## The marks -/

namespace Quiet

variable {κ : Type} {hooks : Hooks κ}

/-- Every listener of the gate hears its signal. -/
def round (gate : Gate) : List QuietCall :=
  gate.listeners.map fun listener => .writability listener gate.writable

theorem notify_eq (gate : Gate) (s : Quiet κ) :
    (hostOf hooks).gateHost.notify gate s = { s with calls := s.calls ++ round gate } := by
  unfold GateHost.notify round
  induction gate.listeners generalizing s with
  | nil => simp
  | cons listener rest ih =>
    rw [List.foldl_cons, ih, List.map_cons, ← List.singleton_append, ← List.append_assoc]
    rfl

/-- A flip puts the gate in place, writes a line into the log and tells the listeners. -/
theorem flip_eq (gate : Gate) (s : Quiet κ) :
    (hostOf hooks).gateHost.flip gate s =
      { config := s.config.withGate gate
        notices := s.notices ++
          [.writabilityChanged gate.writable gate.queued gate.marks.low gate.marks.high]
        calls := s.calls ++ round gate } := by
  rw [GateHost.flip, notify_eq]
  rfl

theorem isWritability_of_mem_round {gate : Gate} {call : QuietCall} (h : call ∈ round gate) :
    call.isWritability := by
  obtain ⟨_, _, rfl⟩ := List.mem_map.1 h
  rfl

theorem alike_flip (gate : Gate) (s : Quiet κ) :
    s.Alike ((hostOf hooks).gateHost.flip gate s) := by
  rw [flip_eq]
  refine ⟨⟨gate, rfl⟩, ?_⟩
  have hnone : (round gate).filter (fun call => !call.isWritability) = [] := by
    rw [List.filter_eq_nil_iff]
    intro call hcall
    simp [isWritability_of_mem_round hcall]
  simp only [toldAutoRead, List.filter_append, hnone, List.append_nil]

theorem told_flip (gate : Gate) (s : Quiet κ) :
    ((hostOf hooks).gateHost.flip gate s).told = s.told ++ round gate := by
  have hall : (round gate).filter QuietCall.isWritability = round gate :=
    List.filter_eq_self.2 fun _ => isWritability_of_mem_round
  simp only [flip_eq, told, List.filter_append, hall]

/-- The marks are put into the gate, and the signal is brought in line with them at once. -/
theorem setMarks_told (hhooks : hooks.Discreet) (marks : WaterMark) (s : Quiet κ) :
    let after := (hostOf hooks).gateHost.setMarks marks s
    s.Alike after ∧ after.config.core.gate = s.config.core.gate.withMarks marks ∧
      (after.told = s.told ∨ after.told = s.told ++ round after.config.core.gate) := by
  have hgate : (hostOf hooks).gateHost.gate
      ((hostOf hooks).gateHost.modify (fun g => { g with marks }) s) =
        { s.config.core.gate with marks } := rfl
  unfold GateHost.setMarks GateHost.settle Gate.withMarks Gate.settled
  rw [hgate]
  cases Gate.flipped? { s.config.core.gate with marks } with
  | none => exact ⟨⟨⟨_, rfl⟩, rfl⟩, rfl, .inl rfl⟩
  | some g =>
    generalize hstored : (hostOf hooks).gateHost.modify (fun g => { g with marks }) s = stored
    have hflip : stored.Alike ((hostOf hooks).gateHost.flip g stored) := alike_flip g stored
    have htold : ((hostOf hooks).gateHost.flip g stored).told = stored.told ++ round g :=
      told_flip g stored
    -- No listener acts, so the flip is the end of it.
    have hbudget : ¬ (hostOf hooks).gateHost.budget ((hostOf hooks).gateHost.flip g stored) <
        (hostOf hooks).gateHost.budget stored :=
      Nat.not_lt.2 (Nat.le_of_eq (hhooks.budget hflip).symm)
    dsimp only
    rw [if_neg hbudget]
    have hg : ((hostOf hooks).gateHost.flip g stored).config.core.gate = g := by
      rw [flip_eq]
      rfl
    obtain ⟨⟨gate, hconfig⟩, hauto⟩ := hflip
    subst hstored
    refine ⟨⟨⟨gate, hconfig⟩, hauto⟩, hg, .inr ?_⟩
    rw [hg]
    exact htold

/-! ## The result -/

section Batch

variable {t : OptionTable} {batch : OptionMap}

/-- The three ways in which the marks of a batch can be dealt with. -/
inductive MarksOutcome (batch : OptionMap) (s : Quiet κ) : Option Rejection × Quiet κ → Prop where
  | none : ¬ batch.HasMark → MarksOutcome batch s (none, s)
  | applied (marks : WaterMark) (s' : Quiet κ) : batch.HasMark →
    marks.low = batch.targetLow s.config.core.gate.marks →
    marks.high = batch.targetHigh s.config.core.gate.marks →
    s.Alike s' → s'.config.core.gate = s.config.core.gate.withMarks marks →
    (s'.told = s.told ∨ s'.told = s.told ++ round s'.config.core.gate) →
    MarksOutcome batch s (none, s')
  | refused (k : OptionKey) : batch.HasMark → k.IsMark → batch.contains k →
    batch.targetHigh s.config.core.gate.marks < batch.targetLow s.config.core.gate.marks →
    MarksOutcome batch s (some ⟨k, .waterMarkOrder (batch.targetLow s.config.core.gate.marks)
      (batch.targetHigh s.config.core.gate.marks)⟩, s)

theorem applyMarks_outcome (ht : t.Coherent) (hhooks : hooks.Discreet) (hbatch : batch.Typed t)
    (s : Quiet κ) : MarksOutcome batch s ((hostOf hooks).applyMarks batch s) := by
  unfold Host.applyMarks
  rcases Host.markRequest_of_typed ht hbatch with
    ⟨hnone, hrequest⟩ | ⟨hmark, request, hrequest, htarget, hculprit, hcontains⟩
  · rw [hrequest]
    exact .none hnone
  · rw [hrequest]
    obtain ⟨hlow, hhigh⟩ := htarget s.config.core.gate.marks
    have hgate : (hostOf hooks).gateHost.gate s = s.config.core.gate := rfl
    simp only [GateHost.update, hgate, WaterMark.merge, hlow, hhigh]
    cases hpair : WaterMark.ofPair (batch.targetLow s.config.core.gate.marks)
        (batch.targetHigh s.config.core.gate.marks) with
    | ok marks =>
      obtain ⟨hlow, hhigh⟩ := WaterMark.ofPair_eq_ok_iff.1 hpair
      obtain ⟨halike, hafter, htold⟩ := setMarks_told hhooks marks s
      exact .applied marks _ hmark hlow hhigh halike hafter htold
    | error e =>
      obtain ⟨hlt, rfl⟩ := WaterMark.ofPair_eq_error_iff.1 hpair
      exact .refused request.culprit hmark hculprit hcontains hlt

variable [OptionLayer κ]

/-- In a batch without entries for the marks there is nothing but the other entries. -/
theorem trySetOptions_of_not_hasMark (ht : t.Coherent) (hhooks : hooks.Discreet)
    (hbatch : batch.Typed t) (hmark : ¬ batch.HasMark) (s : Quiet κ) :
    (hostOf hooks).trySetOptions batch s = (hostOf hooks).setEntries batch.entries s := by
  have hmarks := applyMarks_outcome ht hhooks hbatch s
  unfold Host.trySetOptions
  rw [Host.withoutMarks_of_not_hasMark hmark]
  generalize (hostOf hooks).applyMarks batch s = out at hmarks ⊢
  cases hmarks with
  | none => rfl
  | applied _ _ h => exact absurd h hmark
  | refused _ h => exact absurd h hmark

/-- The other entries are treated alike in every world that differs from `s` in its gate only. -/
theorem setEntries_agree_others (ht : t.Coherent) (hhooks : hooks.Discreet)
    (hbatch : batch.Typed t) {s s' : Quiet κ} (h : s.Alike s') :
    s.Agree s' ((hostOf hooks).trySetOptions (Host.withoutMarks batch) s)
      ((hostOf hooks).setEntries (Host.withoutMarks batch).entries s') := by
  rw [trySetOptions_of_not_hasMark ht hhooks (Host.typed_withoutMarks hbatch)
    (Host.not_hasMark_withoutMarks batch)]
  exact setEntries_agree hhooks (fun e he => (Host.mem_withoutMarks.1 he).2) h

theorem not_isMark_of_mem_others (ht : t.Coherent) (hhooks : hooks.Discreet)
    (hbatch : batch.Typed t) {s : Quiet κ} {r : Rejection}
    (hr : r ∈ ((hostOf hooks).trySetOptions (Host.withoutMarks batch) s).1) : ¬ r.key.IsMark := by
  rw [trySetOptions_of_not_hasMark ht hhooks (Host.typed_withoutMarks hbatch)
    (Host.not_hasMark_withoutMarks batch)] at hr
  obtain ⟨e, he, hkey⟩ := Host.key_of_mem_setEntries hr
  rw [hkey]
  exact (Host.mem_withoutMarks.1 he).2

/-- Applying a batch with values of the right types, in a world where no client reaches into the
gate while that goes on. If the batch has entries for the water marks, these give the target; what
they leave open stays as it is. A target in order goes into the gate as a whole, which calls every
listener at most once; one that is not in order is refused, as the first refusal, and leaves the
gate alone. In both cases the other entries are accepted, refused and carried out just as they are
without the marks. -/
theorem trySetOptions_marks (requests : List OptionTable.Request) (hhooks : hooks.Discreet)
    (hbatch : batch.Typed (.serve requests)) (s : Quiet κ) :
    let out := (hostOf hooks).trySetOptions batch s
    let others := (hostOf hooks).trySetOptions (Host.withoutMarks batch) s
    let gate := s.config.core.gate
    let low := batch.targetLow gate.marks
    let high := batch.targetHigh gate.marks
    (batch.HasMark → ∀ hle : low ≤ high,
      out.2.config.core.gate.marks = ⟨low, high, hle⟩ ∧
      out.2.config.core.gate = gate.withMarks ⟨low, high, hle⟩ ∧
      (out.2.told = s.told ∨ out.2.told = s.told ++ round out.2.config.core.gate) ∧
      out.1 = others.1) ∧
    (batch.HasMark → high < low →
      out.2.config.core.gate = gate ∧ out.2.told = s.told ∧
      ∃ k, k.IsMark ∧ batch.contains k ∧ out.1 = ⟨k, .waterMarkOrder low high⟩ :: others.1) ∧
    (∀ r ∈ others.1, ¬ r.key.IsMark) ∧ others.2.Alike out.2 := by
  intro out others gate low high
  have ht := OptionTable.serve_coherent requests
  have hkeys : ∀ r ∈ others.1, ¬ r.key.IsMark :=
    fun _ => not_isMark_of_mem_others ht hhooks hbatch
  have hmarks := applyMarks_outcome ht hhooks hbatch s
  have hout : out = (hostOf hooks).trySetOptions batch s := rfl
  unfold Host.trySetOptions at hout
  generalize (hostOf hooks).applyMarks batch s = applied at hmarks hout
  cases hmarks with
  | none hmark =>
    obtain ⟨-, hafter⟩ := setEntries_agree_others ht hhooks hbatch (.refl s)
    rw [hout]
    exact ⟨fun h => absurd h hmark, fun h => absurd h hmark, hkeys, hafter.alike⟩
  | applied marks s₁ hmark hlow hhigh halike hgate htold =>
    obtain ⟨hanswer, hafter⟩ := setEntries_agree_others ht hhooks hbatch halike
    have hfinal := hafter.untouched'.gate.trans hgate
    rw [hout]
    refine ⟨?_, ?_, hkeys, hafter.alike⟩
    · intro _ hle
      obtain rfl : marks = ⟨low, high, hle⟩ := by
        cases marks
        cases hlow
        cases hhigh
        rfl
      refine ⟨?_, hfinal, ?_, hanswer⟩
      · exact (congrArg Gate.marks hfinal).trans (Gate.withMarks_marks _ _)
      · show _ = _ ∨ _ = _
        rw [hafter.untouched'.told, hafter.untouched'.gate]
        exact htold
    · intro _ hlt
      have hle := marks.low_le_high
      rw [hlow, hhigh] at hle
      exact absurd hlt (UInt32.not_lt.2 hle)
  | refused k hmark hk hcontains hlt =>
    have halike :
        s.Alike ((hostOf hooks).note (.marksRejected k.name (.waterMarkOrder low high)) s) :=
      ⟨⟨gate, rfl⟩, rfl⟩
    obtain ⟨hanswer, hafter⟩ := setEntries_agree_others ht hhooks hbatch halike
    rw [hout]
    refine ⟨fun _ hle => absurd hlt (UInt32.not_lt.2 hle), ?_, hkeys, hafter.alike⟩
    intro _ _
    refine ⟨hafter.untouched'.gate, hafter.untouched'.told, k, hk, hcontains, ?_⟩
    exact congrArg (⟨k, .waterMarkOrder low high⟩ :: ·) hanswer

/-- Raising both marks at once, past the high mark that there was: one after the other, the low mark
would be refused. A hook that switches auto-read off when it is asked makes no difference to it. -/
theorem trySetOptions_marks_raised :
    let switchOff : Hooks Empty := {
      ask := fun _ _ s => (none, (host fun _ _ => none).setAutoRead false s)
      budget := fun _ => 0 }
    let rate : OptionKey := ⟨1024, "rate", .u32⟩
    let batch : OptionMap := .ofList [(.writeBufferLowWaterMark, .u32 102400),
      (.writeBufferHighWaterMark, .u32 204800), (.writeSpinCount, .i32 0), (rate, .u32 7)]
    let s : Quiet Empty :=
      ofConfig { Config.standard with registry := ⟨[⟨rate, .u32 1, some 0⟩]⟩ }
    let out := (hostOf switchOff).trySetOptions batch s
    switchOff.Discreet ∧ batch.Typed (.serve [.valueOf "rate" .u32]) ∧
      out.2.config.core.gate.marks = ⟨102400, 204800, by decide⟩ ∧
      out.1.map (·.key) = [.writeSpinCount] ∧ out.2.config.core.autoRead = false := by
  intro switchOff rate batch s
  have hswitch : ∀ {s s' : Quiet Empty}, s.Alike s' →
      Parallel s s' ((hostOf switchOff).setAutoRead false s)
        ((hostOf switchOff).setAutoRead false s') := fun h => setAutoRead_parallel h false
  have hhooks : switchOff.Discreet := ⟨fun _ _ _ _ h => ⟨rfl, hswitch h⟩, fun _ => rfl⟩
  have hbatch : batch.Typed (.serve [.valueOf "rate" .u32]) := by
    unfold OptionMap.Typed
    decide
  have hmark : batch.HasMark := by
    unfold OptionMap.HasMark
    decide
  obtain ⟨happlied, -, -, hothers⟩ := trySetOptions_marks _ hhooks hbatch s
  obtain ⟨hmarks, -, -, hanswer⟩ := happlied hmark (by decide)
  have htarget : batch.targetLow s.config.core.gate.marks = 102400 ∧
      batch.targetHigh s.config.core.gate.marks = 204800 := by decide
  refine ⟨hhooks, hbatch, ?_, ?_, ?_⟩
  · rw [hmarks]
    simp only [htarget]
  · rw [hanswer]
    decide +kernel
  · refine hothers.autoRead.trans ?_
    decide +kernel

end Batch

end Quiet

end FlowControl
