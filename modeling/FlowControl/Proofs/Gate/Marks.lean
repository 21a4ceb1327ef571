import FlowControl.Proofs.Gate.Hysteresis

/-!
# Ways to change the marks

A client can set one mark, or both, or any of them by an update that takes the marks it leaves open
from the gate. Each way has a test of its own against marks of its own. They have in common that
each asks for one pair (`GateCall.request?`), is accepted if that pair is in order, and stores it;
so two calls that ask for the same pair cannot be told apart, whatever listeners do.

Setting one mark after the other goes through a pair of which one side is new and one is old. A gate
that is settled may flip at that pair, but only if it would flip at the final one anyway
(`Hysteresis.judge_through`). So among passive listeners the two steps come to the same as one
update of the pair. The notice of a flip is not the same: it shows the marks of the moment.
-/

set_option autoImplicit false

namespace FlowControl

/-- The error that a call is answered with, if it is refused. -/
def GateOutcome.error? : GateOutcome → Option ConfigError
  | .failed e => some e
  | .done | .marks _ | .text _ => none

/-- The pair of marks that a call asks for, on a gate with the given marks. -/
def GateCall.request? (marks : WaterMark) : GateCall → Option (UInt32 × UInt32)
  | .setHigh high => some (marks.low, high)
  | .setLow low => some (low, marks.high)
  | .setMarks low high => some (low, high)
  | .update low? high? => some (low?.getD marks.low, high?.getD marks.high)
  | .queue _ | .flush _ | .describe => none

theorem WaterMark.ofPair_of_le {low high : UInt32} (h : low ≤ high) :
    ofPair low high = .ok ⟨low, high, h⟩ := dif_pos h

theorem WaterMark.ofPair_of_lt {low high : UInt32} (h : high < low) :
    ofPair low high = .error (.waterMarkOrder low high) := dif_neg (UInt32.not_le.2 h)

theorem GateCall.stored?_of_request? {call : GateCall} {g : Gate} {low high : UInt32}
    (h : call.request? g.marks = some (low, high)) :
    call.stored? g = stored?.remarked g (WaterMark.ofPair low high) := by
  cases call with
  | setHigh | setLow | setMarks | update =>
    cases h
    rfl
  | queue | flush | describe => cases h

namespace GateHost

variable {σ : Type} {h : GateHost σ} {s : σ} {call call' : GateCall} {low high : UInt32}

theorem error?_answer (r : Except ConfigError Unit × σ) :
    (perform.answer r).1.error? = match r.1 with
      | .ok () => none
      | .error e => some e := by
  obtain ⟨r, s⟩ := r
  cases r <;> rfl

/-- A call about the marks is accepted if the pair that it asks for is in order. -/
theorem error?_perform (hr : call.request? (h.gate s).marks = some (low, high)) :
    (h.perform call s).1.error?
      = if low ≤ high then none else some (.waterMarkOrder low high) := by
  rcases UInt32.lt_or_le high low with hlt | hle
  · rw [if_neg (UInt32.not_le.2 hlt)]
    have hrefused := WaterMark.ofPair_of_lt hlt
    cases call with
    | queue | flush | describe => cases hr
    | setHigh | setLow =>
      cases hr
      simp only [perform, error?_answer, setHigh, setLow, dif_neg (UInt32.not_le.2 hlt)]
    | setMarks =>
      cases hr
      simp only [perform, hrefused, GateOutcome.error?]
    | update =>
      cases hr
      simp only [perform, update, WaterMark.merge, hrefused, GateOutcome.error?]
  · rw [if_pos hle]
    have haccepted := WaterMark.ofPair_of_le hle
    cases call with
    | queue | flush | describe => cases hr
    | setHigh | setLow =>
      cases hr
      simp only [perform, error?_answer, setHigh, setLow, dif_pos hle]
    | setMarks =>
      cases hr
      simp only [perform, haccepted, GateOutcome.error?]
    | update =>
      cases hr
      simp only [perform, update, WaterMark.merge, haccepted, GateOutcome.error?]

/-- A refused call leaves the world as it was. -/
theorem perform_snd_of_lt (hr : call.request? (h.gate s).marks = some (low, high))
    (hlt : high < low) : (h.perform call s).2 = s := by
  rw [perform_snd, GateCall.stored?_of_request? hr, WaterMark.ofPair_of_lt hlt]
  rfl

/-- Two calls that ask for the same pair are answered in the same way and leave the same world. -/
theorem perform_congr {pair : UInt32 × UInt32}
    (hr : call.request? (h.gate s).marks = some pair)
    (hr' : call'.request? (h.gate s).marks = some pair) :
    (h.perform call s).1.error? = (h.perform call' s).1.error?
      ∧ (h.perform call s).2 = (h.perform call' s).2 := by
  refine ⟨(error?_perform hr).trans (error?_perform hr').symm, ?_⟩
  rw [perform_snd, perform_snd, GateCall.stored?_of_request? hr, GateCall.stored?_of_request? hr']

end GateHost

/-! ## Through a pair in between -/

namespace Hysteresis

def withMarks (low high : Nat) (a : Hysteresis) : Hysteresis := { a with low, high }

theorem remark_of_le {low high : Nat} (h : low ≤ high) (a : Hysteresis) :
    a.remark low high = a.withMarks low high := if_pos h

section Through

variable {a : Hysteresis} {low₁ high₁ low high : Nat}

/-- A flag that turns at a pair that has each side from the old marks or from the new ones turns on
account of a new one, so that the new marks leave no choice. -/
theorem judge_of_turned (hopen : a.writable = true → a.queued ≤ a.high)
    (hclosed : a.writable = false → a.low < a.queued) (hlow : low₁ = a.low ∨ low₁ = low)
    (hhigh : high₁ = a.high ∨ high₁ = high) (hmid : low₁ ≤ high₁) (hnew : low ≤ high)
    (hturned : (a.withMarks low₁ high₁).judge.writable ≠ a.writable) (flag : Bool) :
    judge ⟨a.queued, low, high, flag⟩
      = ⟨a.queued, low, high, (a.withMarks low₁ high₁).judge.writable⟩ := by
  rcases Nat.lt_or_ge high₁ a.queued with hover | hfits
  · have hfalse : (a.withMarks low₁ high₁).judge.writable = false :=
      congrArg writable (judge_of_lt hover)
    have hbelow : a.queued ≤ a.high := hopen (eq_true_of_ne_false (hfalse ▸ hturned.symm))
    have hnewer : high₁ = high := hhigh.resolve_left (by omega)
    subst hnewer
    rw [hfalse]
    exact judge_of_lt hover
  · rcases Nat.lt_or_ge low₁ a.queued with hleft | hdrained
    · exact absurd (congrArg writable (judge_of_inBand ⟨hleft, hfits⟩)) hturned
    · have htrue : (a.withMarks low₁ high₁).judge.writable = true :=
        congrArg writable (judge_of_le hdrained hmid)
      have habove : a.low < a.queued :=
        hclosed (eq_false_of_ne_true (htrue ▸ hturned.symm))
      have hnewer : low₁ = low := hlow.resolve_left (by omega)
      subst hnewer
      rw [htrue]
      exact judge_of_le hdrained hnew

/-- On the way to new marks a settled flag may pass a pair that has each side from the old marks or
from the new ones. It turns at most once on the way, and ends as if it had gone there directly. -/
theorem judge_through (hopen : a.writable = true → a.queued ≤ a.high)
    (hclosed : a.writable = false → a.low < a.queued) (hlow : low₁ = a.low ∨ low₁ = low)
    (hhigh : high₁ = a.high ∨ high₁ = high) (hmid : low₁ ≤ high₁) (hnew : low ≤ high) :
    let mid := (a.withMarks low₁ high₁).judge
    let last := (mid.withMarks low high).judge
    last = (a.withMarks low high).judge
      ∧ (mid.writable = a.writable ∨ mid.writable = last.writable) := by
  intro mid last
  by_cases hsame : mid.writable = a.writable
  · have hthere : mid.withMarks low high = a.withMarks low high := by
      simp only [withMarks, Hysteresis.mk.injEq, true_and]
      exact ⟨rfl, hsame⟩
    exact ⟨congrArg judge hthere, .inl hsame⟩
  · have hend : ∀ flag, judge ⟨a.queued, low, high, flag⟩ = ⟨a.queued, low, high, mid.writable⟩ :=
      judge_of_turned hopen hclosed hlow hhigh hmid hnew hsame
    exact ⟨(hend _).trans (hend _).symm, .inr (congrArg writable (hend _)).symm⟩

end Through

end Hysteresis

namespace Gate

theorem eq_of_reading {g g' : Gate} (h : g.reading = g'.reading)
    (hl : g.listeners = g'.listeners) : g = g' := by
  obtain ⟨queued, ⟨low, high, _⟩, writable, listeners⟩ := g
  obtain ⟨queued', ⟨low', high', _⟩, writable', listeners'⟩ := g'
  simp only [reading, Hysteresis.mk.injEq] at h
  obtain ⟨hqueued, hlow, hhigh, rfl⟩ := h
  obtain rfl := UInt64.toNat_inj.1 hqueued
  obtain rfl := UInt32.toNat_inj.1 hlow
  obtain rfl := UInt32.toNat_inj.1 hhigh
  obtain rfl := hl
  rfl

theorem reading_after_of_request? {g : Gate} {call : GateCall} {low high : UInt32}
    (hr : call.request? g.marks = some (low, high)) (hle : low ≤ high) :
    (g.after call).reading = (g.reading.withMarks low.toNat high.toNat).judge := by
  rw [after, reading_settled, GateCall.stored?_of_request? hr, reading_remarked,
    Hysteresis.remark_of_le (UInt32.le_iff_toNat_le.1 hle)]

theorem marks_after_of_request? {g : Gate} {call : GateCall} {low high : UInt32}
    (hr : call.request? g.marks = some (low, high)) (hle : low ≤ high) :
    (g.after call).marks = ⟨low, high, hle⟩ := by
  rw [after, (settled_frame _).2, GateCall.stored?_of_request? hr, WaterMark.ofPair_of_le hle]
  rfl

end Gate

/-! ## The calls of a journal -/

def GateEntry.call? : GateEntry → Option (Nat × Bool)
  | .called l v _ => some (l, v)
  | .notice _ | .did _ _ _ => none

/-- Who was called with which value, in order. -/
def calls (journal : List GateEntry) : List (Nat × Bool) := journal.filterMap GateEntry.call?

theorem calls_append (J K : List GateEntry) : calls (J ++ K) = calls J ++ calls K :=
  List.filterMap_append

theorem Gate.calls_lines (before : Bool) (g : Gate) :
    calls (g.lines before)
      = if g.writable = before then [] else g.listeners.map fun l => (l, g.writable) := by
  unfold lines
  split
  · rfl
  · show (g.listeners.map _).filterMap GateEntry.call? = _
    rw [List.filterMap_map]
    exact congrFun (List.filterMap_eq_map (f := fun l => (l, g.writable))) g.listeners

/-- Two looks at the signal of which one finds nothing to do make the calls of one look. -/
theorem Gate.calls_lines_append {before : Bool} {g g' : Gate} (hl : g.listeners = g'.listeners)
    (hflips : g.writable = before ∨ g.writable = g'.writable) :
    calls (g.lines before) ++ calls (g'.lines g.writable) = calls (g'.lines before) := by
  rw [calls_lines, calls_lines, calls_lines, hl]
  rcases hflips with hfirst | hsecond
  · rw [if_pos hfirst, List.nil_append, hfirst]
  · rw [if_pos hsecond.symm, List.append_nil, hsecond]

namespace GateSession

variable {s : GateSession}

/-- The call is not refused. -/
def Accepts (s : GateSession) (call : GateCall) : Prop := (run (.call call) s).1.error? = none

/-- Two calls cannot be told apart: they are refused with the same error or not at all, and leave
the same gate, listeners and journal. -/
structure Alike (s : GateSession) (call call' : GateCall) : Prop where
  error : (run (.call call) s).1.error? = (run (.call call') s).1.error?
  session : (run (.call call) s).2 = (run (.call call') s).2

/-- The gate and its listeners are the same, and the same calls were made in the same order. -/
structure SameEnd (s t : GateSession) : Prop where
  gate : s.gate = t.gate
  listeners : s.listeners = t.listeners
  calls : calls s.journal = calls t.journal

/-- If both calls are accepted, one after the other, so is the third instead of them, with the same
end. -/
def EndsAs (s : GateSession) (first second paired : GateCall) : Prop :=
  s.Accepts first → (run (.call first) s).2.Accepts second →
    s.Accepts paired
      ∧ SameEnd (run (.call second) (run (.call first) s).2).2 (run (.call paired) s).2

theorem alike_of_request? {call call' : GateCall} {pair : UInt32 × UInt32}
    (hr : call.request? s.gate.marks = some pair) (hr' : call'.request? s.gate.marks = some pair) :
    s.Alike call call' := by
  obtain ⟨herror, hsession⟩ :=
    GateHost.perform_congr (h := host (perform s.budget)) (s := s) hr hr'
  constructor
  · rw [run_call_eq, run_call_eq]
    exact herror
  · rw [run_call_eq, run_call_eq]
    exact hsession

theorem error?_run {call : GateCall} {low high : UInt32}
    (hr : call.request? s.gate.marks = some (low, high)) :
    (run (.call call) s).1.error?
      = if low ≤ high then none else some (.waterMarkOrder low high) := by
  rw [run_call_eq]
  exact GateHost.error?_perform hr

theorem accepts_iff {call : GateCall} {low high : UInt32}
    (hr : call.request? s.gate.marks = some (low, high)) : s.Accepts call ↔ low ≤ high := by
  rw [Accepts, error?_run hr]
  split
  case isTrue h => simp [h]
  case isFalse h => simp [h]

/-- Two accepted calls, of which the first asks for a pair with each side old or new, come to the
same as one call for the new pair. -/
theorem Reached.endsAs_through (hs : s.Reached) {first second paired : GateCall}
    {low₁ high₁ low high : UInt32} (hfirst : first.request? s.gate.marks = some (low₁, high₁))
    (hsecond : ∀ hle, second.request? ⟨low₁, high₁, hle⟩ = some (low, high))
    (hpaired : paired.request? s.gate.marks = some (low, high))
    (hlow : low₁ = s.gate.marks.low ∨ low₁ = low)
    (hhigh : high₁ = s.gate.marks.high ∨ high₁ = high) : s.EndsAs first second paired := by
  intro hacc₁ hacc₂
  have hle₁ : low₁ ≤ high₁ := (accepts_iff hfirst).1 hacc₁
  have hs₁ : (GateSession.run (.call first) s).2.Reached := hs.run trivial
  have hgate₁ : (GateSession.run (.call first) s).2.gate = s.gate.after first := by
    rw [hs.run_call]
  have hsecond₁ : second.request? (GateSession.run (.call first) s).2.gate.marks
      = some (low, high) := by
    rw [hgate₁, Gate.marks_after_of_request? hfirst hle₁]
    exact hsecond hle₁
  have hle : low ≤ high := (accepts_iff hsecond₁).1 hacc₂
  rw [hgate₁] at hsecond₁
  obtain ⟨hend, hturns⟩ := Hysteresis.judge_through (a := s.gate.reading) hs.settled.1 hs.settled.2
    (hlow.imp (congrArg UInt32.toNat) (congrArg UInt32.toNat))
    (hhigh.imp (congrArg UInt32.toNat) (congrArg UInt32.toNat))
    (UInt32.le_iff_toNat_le.1 hle₁) (UInt32.le_iff_toNat_le.1 hle)
  rw [← Gate.reading_after_of_request? hfirst hle₁] at hend hturns
  rw [← Gate.reading_after_of_request? hsecond₁ hle] at hend hturns
  rw [← Gate.reading_after_of_request? hpaired hle] at hend
  have hlisteners : ((s.gate.after first).after second).listeners
      = (s.gate.after paired).listeners := by simp only [Gate.after_listeners]
  have hsame : (s.gate.after first).after second = s.gate.after paired :=
    Gate.eq_of_reading hend hlisteners
  have honce : (s.gate.after first).writable = s.gate.writable
      ∨ (s.gate.after first).writable = ((s.gate.after first).after second).writable := hturns
  refine ⟨(accepts_iff hpaired).2 hle, ?_⟩
  rw [hs₁.run_call, hs.run_call, hs.run_call]
  refine ⟨hsame, rfl, ?_⟩
  simp only [calls_append, List.append_assoc]
  rw [Gate.calls_lines_append (Gate.after_listeners _ _).symm honce, hsame]

/-- An update of one mark or of both cannot be told from the call that sets just these. Every call
about the marks is accepted exactly if the pair that it asks for is in order, and changes nothing
otherwise. Setting one mark after the other, in whatever order both are accepted, ends as the update
of the pair, with the same calls of listeners. -/
theorem update_agrees (hs : s.Reached) (low high : UInt32) :
    (s.Alike (.update none (some high)) (.setHigh high)
        ∧ s.Alike (.update (some low) none) (.setLow low)
        ∧ s.Alike (.update (some low) (some high)) (.setMarks low high))
      ∧ (∀ call l h, call.request? s.gate.marks = some (l, h) →
        (s.Accepts call ↔ l ≤ h)
          ∧ (l ≤ h → (run (.call call) s).2.gate.marks.low = l
            ∧ (run (.call call) s).2.gate.marks.high = h)
          ∧ (h < l → (run (.call call) s).1.error? = some (.waterMarkOrder l h)
            ∧ (run (.call call) s).2 = s))
      ∧ s.EndsAs (.setHigh high) (.setLow low) (.update (some low) (some high))
      ∧ s.EndsAs (.setLow low) (.setHigh high) (.update (some low) (some high)) := by
  refine ⟨⟨?_, ?_, ?_⟩, ?_, ?_, ?_⟩
  · exact alike_of_request? rfl rfl
  · exact alike_of_request? rfl rfl
  · exact alike_of_request? rfl rfl
  · intro call l h hr
    refine ⟨accepts_iff hr, ?_, ?_⟩
    · intro hle
      rw [hs.run_call, Gate.marks_after_of_request? hr hle]
      exact ⟨rfl, rfl⟩
    · intro hlt
      rw [error?_run hr, if_neg (UInt32.not_le.2 hlt), run_call_eq]
      exact ⟨rfl, GateHost.perform_snd_of_lt hr hlt⟩
  · have hfirst : (GateCall.setHigh high).request? s.gate.marks
        = some (s.gate.marks.low, high) := rfl
    exact hs.endsAs_through hfirst (fun _ => rfl) rfl (.inl rfl) (.inr rfl)
  · have hfirst : (GateCall.setLow low).request? s.gate.marks
        = some (low, s.gate.marks.high) := rfl
    exact hs.endsAs_through hfirst (fun _ => rfl) rfl (.inr rfl) (.inl rfl)

/-- A gate that is closed with 18 bytes queued opens at a low mark of 18, once, whichever of the two
marks is set first; a low mark above the high one is refused. -/
theorem update_agrees_opened :
    let s := runAll [.call (.queue 25), .call (.flush 7)]
      (start ⟨10, 20, by decide⟩ [⟨"first", []⟩, ⟨"second", []⟩])
    let told := [(0, false), (1, false), (0, true), (1, true)]
    s.Reached
      ∧ calls (run (.call (.setHigh 30)) (run (.call (.setLow 18)) s).2).2.journal = told
      ∧ calls (run (.call (.update (some 18) (some 30))) s).2.journal = told
      ∧ (run (.call (.setLow 21)) s).1.error? = some (.waterMarkOrder 21 20)
      ∧ (run (.call (.update (some 21) none)) s).2 = s := by
  intro s told
  have hs : s.Reached :=
    ⟨⟨10, 20, by decide⟩, [⟨"first", []⟩, ⟨"second", []⟩], [.call (.queue 25), .call (.flush 7)],
      by simp [Listener.Passive], by simp [GateStep.Passive], rfl⟩
  have htold :
      calls (run (.call (.setHigh 30)) (run (.call (.setLow 18)) s).2).2.journal = told := by
    decide +kernel
  have hlow : s.gate.marks = ⟨10, 20, by decide⟩ := by decide +kernel
  have hfirst : s.Accepts (.setLow 18) := (accepts_iff (by rw [hlow]; rfl)).2 (by decide)
  have hsecond : (run (.call (.setLow 18)) s).2.Accepts (.setHigh 30) := by
    unfold Accepts
    decide +kernel
  obtain ⟨-, hdecided, -, hends⟩ := update_agrees hs 18 30
  obtain ⟨-, hend⟩ := hends hfirst hsecond
  have hrefused := (hdecided (.setLow 21) 21 20 (by rw [hlow]; rfl)).2.2 (by decide)
  have hstays := (hdecided (.update (some 21) none) 21 20 (by rw [hlow]; rfl)).2.2 (by decide)
  exact ⟨hs, htold, hend.calls.symm.trans htold, hrefused.1, hstays.2⟩

end GateSession

end FlowControl
