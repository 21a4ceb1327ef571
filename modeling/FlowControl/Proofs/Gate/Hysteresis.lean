import FlowControl.Proofs.Gate.Passive

/-!
# The gate as a hysteresis automaton

What a gate is for can be said in a line: its signal is down above the high mark, up at the low mark
and below, and in between it stays as it was. `Hysteresis` is that line as an automaton over
numbers, which sets its flag once after every operation, whatever the operation was about.

The gate itself goes another way. It looks at its signal only after some operations, turns it around
one flip at a time, and tells its listeners of each flip. Among passive listeners the two agree
after every operation, a count that wraps around and marks that are refused included, and every
listener that was there before an operation hears of the change that it makes, once, if it makes one
(`GateSession.runAll_hysteresis`).
-/

set_option autoImplicit false

namespace FlowControl

/-- A count, two marks and a flag. -/
structure Hysteresis where
  queued : Nat
  low : Nat
  high : Nat
  writable : Bool
deriving DecidableEq, Repr

namespace Hysteresis

/-- New marks, unless they are out of order. -/
def remark (low high : Nat) (a : Hysteresis) : Hysteresis :=
  if low ≤ high then { a with low, high } else a

/-- The count and the marks after an operation. The count is kept in a word of 64 bits, and does not
fall below zero. -/
def move : GateStep → Hysteresis → Hysteresis
  | .call (.queue n), a => { a with queued := (a.queued + n.toNat) % UInt64.size }
  | .call (.flush n), a => { a with queued := a.queued - n.toNat }
  | .call (.setHigh high), a => a.remark a.low high.toNat
  | .call (.setLow low), a => a.remark low.toNat a.high
  | .call (.setMarks low high), a => a.remark low.toNat high.toNat
  | .call (.update low? high?), a =>
    a.remark ((low?.map UInt32.toNat).getD a.low) ((high?.map UInt32.toNat).getD a.high)
  | .call .describe, a => a
  | .addListener _ _, a => a

/-- The flag for this count and these marks, given the flag before. -/
def judge (a : Hysteresis) : Hysteresis :=
  { a with
    writable := if a.high < a.queued then false else if a.queued ≤ a.low then true else a.writable }

def take (step : GateStep) (a : Hysteresis) : Hysteresis := (a.move step).judge

def takeAll (steps : List GateStep) (a : Hysteresis) : Hysteresis :=
  steps.foldl (fun a step => a.take step) a

/-- The count is above the low mark and not above the high one. -/
def InBand (a : Hysteresis) : Prop := a.low < a.queued ∧ a.queued ≤ a.high

instance (a : Hysteresis) : Decidable a.InBand := inferInstanceAs (Decidable (_ ∧ _))

theorem move_writable (step : GateStep) (a : Hysteresis) : (a.move step).writable = a.writable := by
  have hremark : ∀ low high, (a.remark low high).writable = a.writable := by
    intro low high
    unfold remark
    split <;> rfl
  cases step with
  | addListener => rfl
  | call call =>
    cases call with
    | queue | flush | describe => rfl
    | setHigh | setLow | setMarks | update => exact hremark _ _

theorem judge_of_lt {a : Hysteresis} (h : a.high < a.queued) :
    a.judge = { a with writable := false } := by
  rw [judge, if_pos h]

theorem judge_of_le {a : Hysteresis} (h : a.queued ≤ a.low) (horder : a.low ≤ a.high) :
    a.judge = { a with writable := true } := by
  rw [judge, if_neg (Nat.not_lt.2 (Nat.le_trans h horder)), if_pos h]

theorem judge_of_inBand {a : Hysteresis} (h : a.InBand) : a.judge = a := by
  rw [judge, if_neg (Nat.not_lt.2 h.2), if_neg (Nat.not_le.2 h.1)]

theorem judge_closes_iff {a : Hysteresis} (hw : a.writable = true) :
    a.judge.writable = false ↔ a.high < a.queued := by
  by_cases hover : a.high < a.queued
  · simp [judge_of_lt hover, hover]
  · simp [judge, hover, hw]

theorem judge_opens_iff {a : Hysteresis} (hw : a.writable = false) (horder : a.low ≤ a.high) :
    a.judge.writable = true ↔ a.queued ≤ a.low := by
  by_cases hdrained : a.queued ≤ a.low
  · simp [judge_of_le hdrained horder, hdrained]
  · simp [judge, hdrained, hw]

/-- The flag after an operation, from the count and the marks after it. -/
theorem take_writable (step : GateStep) (a : Hysteresis) :
    (a.take step).writable
      = if (a.take step).high < (a.take step).queued then false
        else if (a.take step).queued ≤ (a.take step).low then true
        else a.writable := by
  rw [← move_writable step a]
  rfl

end Hysteresis

/-! ## A gate, read as an automaton -/

namespace Gate

/-- Count, marks and signal of a gate, as numbers. -/
def reading (g : Gate) : Hysteresis :=
  ⟨g.queued.toNat, g.marks.low.toNat, g.marks.high.toNat, g.writable⟩

/-- Since the marks are in order, the flip that a gate may need is the one that the automaton
makes. -/
theorem reading_settled (g : Gate) : g.settled.reading = g.reading.judge := by
  have horder : g.marks.low.toNat ≤ g.marks.high.toNat := g.marks.low_le_high
  unfold settled flipped? Hysteresis.judge
  cases hw : g.writable with
  | true =>
    by_cases hfull : g.marks.high.toNat < g.queued.toNat
    · simp [reading, hfull]
    · simp [reading, hfull, hw]
  | false =>
    by_cases hdrained : g.queued.toNat ≤ g.marks.low.toNat
    · have hnot : ¬ g.marks.high.toNat < g.queued.toNat := by omega
      simp [reading, hdrained, hnot]
    · simp [reading, hdrained, hw]

theorem Settled.judge {g : Gate} (h : g.Settled) : g.reading.judge = g.reading := by
  rw [← reading_settled, settled_of_settled h]

theorem reading_remarked {g : Gate} (low high : UInt32) :
    ((GateCall.stored?.remarked g (WaterMark.ofPair low high)).getD g).reading
      = g.reading.remark low.toNat high.toNat := by
  unfold WaterMark.ofPair Hysteresis.remark
  by_cases hle : low ≤ high
  · rw [dif_pos hle, if_pos (UInt32.le_iff_toNat_le.1 hle)]
    rfl
  · rw [dif_neg hle, if_neg (mt UInt32.le_iff_toNat_le.2 hle)]
    rfl

/-- What a call stores moves count and marks as the automaton moves them. -/
theorem reading_stored? (call : GateCall) (g : Gate) :
    ((call.stored? g).getD g).reading = g.reading.move (.call call) := by
  cases call with
  | queue n =>
    rw [GateCall.stored?]
    split
    case isTrue hzero =>
      subst hzero
      have hfits : g.queued.toNat % UInt64.size = g.queued.toNat :=
        Nat.mod_eq_of_lt g.queued.toNat_lt_size
      simp only [Hysteresis.move, reading, Option.getD_none, UInt64.toNat_zero, Nat.add_zero, hfits]
    case isFalse => simp [Hysteresis.move, reading, Gate.queue, UInt64.toNat_add, UInt64.size]
  | flush n =>
    rw [GateCall.stored?]
    split
    case isTrue hzero =>
      subst hzero
      simp [Hysteresis.move, reading]
    case isFalse =>
      have hflushed : (g.flush n).queued.toNat = g.queued.toNat - n.toNat := by
        unfold Gate.flush
        dsimp only
        split
        case isTrue hle =>
          rw [UInt64.le_iff_toNat_le] at hle
          exact (Nat.sub_eq_zero_of_le hle).symm
        case isFalse hgt =>
          exact UInt64.toNat_sub_of_le _ _ (UInt64.le_of_lt (UInt64.not_le.1 hgt))
      simp [Hysteresis.move, reading, ← hflushed, Gate.flush]
  | setHigh high => exact reading_remarked g.marks.low high
  | setLow low => exact reading_remarked low g.marks.high
  | setMarks low high => exact reading_remarked low high
  | update low? high? =>
    have hlow : (low?.map UInt32.toNat).getD g.marks.low.toNat
        = (low?.getD g.marks.low).toNat := by cases low? <;> rfl
    have hhigh : (high?.map UInt32.toNat).getD g.marks.high.toNat
        = (high?.getD g.marks.high).toNat := by cases high? <;> rfl
    have hmove : g.reading.move (.call (.update low? high?))
        = g.reading.remark (low?.getD g.marks.low).toNat (high?.getD g.marks.high).toNat := by
      rw [← hlow, ← hhigh]
      rfl
    rw [hmove]
    exact reading_remarked _ _
  | describe => rfl

theorem reading_after (call : GateCall) (g : Gate) :
    (g.after call).reading = g.reading.take (.call call) := by
  rw [after, reading_settled, reading_stored?, Hysteresis.take]

end Gate

/-! ## What listeners hear -/

theorem told_calls (i : Nat) (ls : List Nat) (v : Bool) (g : Gate) :
    told i (ls.map fun l => .called l v g) = List.replicate (ls.count i) v := by
  induction ls with
  | nil => rfl
  | cons l ls ih =>
    rw [List.map_cons]
    by_cases hl : l = i
    · subst hl
      rw [told_called_self, ih, List.count_cons_self, List.replicate_succ]
    · rw [told_called_other hl, ih, List.count_cons_of_ne hl]

/-- A flip is told to every listener once. -/
theorem Gate.told_lines {g : Gate} {n : Nat} (hg : g.listeners = List.range n) (before : Bool)
    (i : Nat) :
    told i (g.lines before) = if i < n ∧ g.writable ≠ before then [g.writable] else [] := by
  unfold lines
  by_cases hsame : g.writable = before
  · rw [if_pos hsame, if_neg (fun h => h.2 hsame)]
    rfl
  · have hflip : told i g.flipLines = List.replicate ((List.range n).count i) g.writable := by
      rw [← hg]
      exact told_calls i g.listeners g.writable g
    rw [if_neg hsame, hflip]
    by_cases hi : i < n
    · rw [List.count_eq_one_of_mem List.nodup_range (List.mem_range.2 hi), if_pos ⟨hi, hsame⟩]
      rfl
    · rw [List.count_eq_zero.2 (mt List.mem_range.1 hi), if_neg (fun h => hi h.1)]
      rfl

namespace GateSession

variable {s : GateSession} {step : GateStep} {steps : List GateStep}

/-- One operation takes the gate where it takes the automaton. -/
theorem Reached.reading_run (hs : s.Reached) (step : GateStep) :
    (GateSession.run step s).2.gate.reading = s.gate.reading.take step := by
  cases step with
  | call call => rw [hs.run_call, Gate.reading_after]
  | addListener label reactions =>
    rw [run_addListener_eq]
    exact hs.settled.judge.symm

/-- What an operation writes into the journal tells every listener of the change, if there is
one. -/
theorem Reached.told_run (hs : s.Reached) (step : GateStep) :
    ∃ J, (GateSession.run step s).2.journal = s.journal ++ J
      ∧ ((GateSession.run step s).2.gate.writable = s.gate.writable → J = [])
      ∧ ∀ i, told i J
        = if i < s.listeners.length
            ∧ (GateSession.run step s).2.gate.writable ≠ s.gate.writable then
            [(GateSession.run step s).2.gate.writable]
          else [] := by
  cases step with
  | call call =>
    rw [hs.run_call]
    refine ⟨_, rfl, fun hsame => if_pos hsame, Gate.told_lines ?_ _⟩
    exact (Gate.after_listeners call s.gate).trans hs.numbered
  | addListener label reactions =>
    rw [run_addListener_eq]
    refine ⟨[], (List.append_nil _).symm, fun _ => rfl, fun i => ?_⟩
    rw [if_neg (fun h => h.2 rfl)]
    rfl

theorem Reached.reading_runAll (hs : s.Reached) (hsteps : ∀ t ∈ steps, t.Passive) :
    (GateSession.runAll steps s).gate.reading = s.gate.reading.takeAll steps := by
  induction steps generalizing s with
  | nil => rfl
  | cons step rest ih =>
    obtain ⟨hstep, hrest⟩ := List.forall_mem_cons.1 hsteps
    exact (ih (hs.run hstep) hrest).trans (congrArg _ (hs.reading_run step))

/-- As long as the count stays in the band, nothing is written. -/
theorem Reached.journal_runAll_of_inBand (hs : s.Reached) (hsteps : ∀ t ∈ steps, t.Passive)
    (hband : ∀ p, p ≠ [] → p <+: steps → (GateSession.runAll p s).gate.reading.InBand) :
    (GateSession.runAll steps s).journal = s.journal := by
  induction steps generalizing s with
  | nil => rfl
  | cons step rest ih =>
    obtain ⟨hstep, hrest⟩ := List.forall_mem_cons.1 hsteps
    have hfirst : (GateSession.run step s).2.gate.reading.InBand :=
      hband [step] (List.cons_ne_nil _ _) ⟨rest, rfl⟩
    have hsame : (GateSession.run step s).2.gate.writable = s.gate.writable := by
      have hflag := Hysteresis.take_writable step s.gate.reading
      rw [← hs.reading_run step, if_neg (Nat.not_lt.2 hfirst.2),
        if_neg (Nat.not_le.2 hfirst.1)] at hflag
      exact hflag
    obtain ⟨J, hjournal, hsilent, -⟩ := hs.told_run step
    rw [hsilent hsame, List.append_nil] at hjournal
    have hlater : ∀ p, p ≠ [] → p <+: rest →
        (GateSession.runAll p (GateSession.run step s).2).gate.reading.InBand :=
      fun p _ hp => hband (step :: p) (List.cons_ne_nil _ _) (List.cons_prefix_cons.2 ⟨rfl, hp⟩)
    exact (ih (hs.run hstep) hrest hlater).trans hjournal

/-- In every run among passive listeners the gate follows the automaton. After each operation the
signal is down above the high mark, up at the low mark and below, and otherwise what it was; a
listener that was there before the operation is called once, with the new value, if the signal has
changed, and nobody is called for any other reason. So a run that keeps the count in the band calls
nobody at all. -/
theorem runAll_hysteresis (hs : s.Reached) (hsteps : ∀ t ∈ steps, t.Passive) :
    (runAll steps s).gate.reading = s.gate.reading.takeAll steps
      ∧ (∀ before step after, steps = before ++ step :: after →
        let s₀ := runAll before s
        let s₁ := (run step s₀).2
        s₁.gate.writable
            = (if s₁.gate.marks.high.toNat < s₁.gate.queued.toNat then false
              else if s₁.gate.queued.toNat ≤ s₁.gate.marks.low.toNat then true
              else s₀.gate.writable)
          ∧ ∃ J, s₁.journal = s₀.journal ++ J
            ∧ ∀ i, told i J
              = if i < s₀.listeners.length ∧ s₁.gate.writable ≠ s₀.gate.writable then
                  [s₁.gate.writable]
                else [])
      ∧ ((∀ p, p ≠ [] → p <+: steps → (runAll p s).gate.reading.InBand) →
        (runAll steps s).journal = s.journal) := by
  refine ⟨hs.reading_runAll hsteps, ?_, hs.journal_runAll_of_inBand hsteps⟩
  intro before step after hsplit s₀ s₁
  have hbefore : ∀ t ∈ before, t.Passive := fun t ht => hsteps t (by simp [hsplit, ht])
  have hs₀ : s₀.Reached := hs.runAll hbefore
  refine ⟨?_, ?_⟩
  · have hflag := Hysteresis.take_writable step s₀.gate.reading
    rw [← hs₀.reading_run step] at hflag
    exact hflag
  · obtain ⟨J, hjournal, -, htold⟩ := hs₀.told_run step
    exact ⟨J, hjournal, htold⟩

/-- Queueing nearly a whole word wraps the count around: it closes the gate once and opens it again,
and the low mark above the high one is refused in between. -/
theorem runAll_hysteresis_wrapped :
    let s := start ⟨10, 20, by decide⟩ [⟨"first", []⟩]
    let steps : List GateStep :=
      [.call (.queue 25), .call (.setLow 30), .call (.queue (0 - 20)), .addListener "second" []]
    s.Reached ∧ (∀ t ∈ steps, t.Passive) ∧ (runAll steps s).gate.reading = ⟨5, 10, 20, true⟩
      ∧ ∃ J, (runAll (steps.take 3) s).journal = (runAll (steps.take 2) s).journal ++ J
        ∧ told 0 J = [true] ∧ told 1 J = [] := by
  intro s steps
  have hs : s.Reached :=
    ⟨⟨10, 20, by decide⟩, [⟨"first", []⟩], [], by simp [Listener.Passive], by simp, rfl⟩
  have hsteps : ∀ t ∈ steps, t.Passive := by simp [steps, GateStep.Passive]
  obtain ⟨hreading, heach, -⟩ := runAll_hysteresis hs hsteps
  obtain ⟨-, J, hjournal, htold⟩ :=
    heach (steps.take 2) (.call (.queue (0 - 20))) (steps.drop 3) rfl
  refine ⟨hs, hsteps, hreading.trans (by decide), J, hjournal, ?_, ?_⟩
  · rw [htold]
    decide +kernel
  · rw [htold]
    decide +kernel

end GateSession

end FlowControl
