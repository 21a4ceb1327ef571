import FlowControl.Proofs.Sizing.Bounds
import FlowControl.Sizing.Pass

/-!
# The course of a read pass

A pass is a loop around a closure of the client, so what it does can only be told read by read. To
have the reads in hand, the closure is made to keep a log of its calls (`HandleHost.noting`); the
pass takes no notice of that, and what is in the log in the end are its reads (`HandleHost.reads`).

`HandleHost.Course` is the pass as a relation, without the bound that makes the loop end: the reads,
how each of them led to the next, and the end. That every pass has a course, and that its reads are
those of the log, is shown once (`HandleHost.pass_course`). Later modules argue by induction on the
course and do not unfold the loop.
-/

set_option autoImplicit false

namespace FlowControl

namespace ReadResult

def error? : ReadResult → Option ReadError
  | .failed e => some e
  | _ => none

theorem eq_failed {result : ReadResult} {e : ReadError} (h : result.error? = some e) :
    result = .failed e := by
  cases result with
  | failed e' => exact congrArg failed (Option.some.inj h)
  | bytes n => cases h
  | wouldBlock => cases h

end ReadResult

/-- A read as it was seen from outside: the capacity that was offered, what the closure returned,
and the world it left. -/
structure Seen (σ : Type) where
  capacity : Nat
  result : ReadResult
  world : σ

namespace Seen

variable {σ : Type}

/-- What a read has to report: nothing if it was empty or failed. -/
def report? (x : Seen σ) : Option (Nat × Nat) :=
  if x.result.count = 0 then none else some (x.result.count, x.capacity)

/-- The reports of a series of reads, in their order. -/
def reports (xs : List (Seen σ)) : List (Nat × Nat) := xs.filterMap report?

theorem reports_concat (xs : List (Seen σ)) (x : Seen σ) :
    reports (xs ++ [x]) = reports xs ++ x.report?.toList := by
  rw [reports, List.filterMap_append]
  cases hx : x.report? <;> simp [reports, hx]

end Seen

/-! ## Positive capacities -/

/-- The strategies that can be made: those that one of the two constructors accepts. -/
inductive Strategy.Made : Strategy → Prop where
  | ofBounds {minimum initial maximum : Nat} {st : Strategy} :
    Strategy.ofBounds minimum initial maximum = .ok st → Made st
  | ofCapacity {capacity : Nat} {st : Strategy} : Strategy.ofCapacity capacity = .ok st → Made st

theorem Strategy.Made.minimum_pos {st : Strategy} (h : st.Made) : 0 < st.minimum := by
  cases h with
  | ofBounds hst =>
    obtain ⟨⟨hpos, -, -⟩, rfl⟩ := ofBounds_eq_ok_iff.1 hst
    exact hpos
  | @ofCapacity capacity _ hst =>
    unfold Strategy.ofCapacity at hst
    split at hst
    case isTrue => cases hst
    case isFalse hpos =>
      cases hst
      exact Nat.pos_of_ne_zero hpos

namespace RecvHandle

theorem minimum_le_nextCapacity (h : RecvHandle) : h.strategy.minimum ≤ h.nextCapacity := by
  obtain ⟨predictor, record⟩ := h
  cases predictor with
  | adaptive a index armed => exact Nat.le_max_left _ _
  | fixed capacity => exact Nat.le_refl _

theorem strategy_report (h : RecvHandle) (bytes capacity : Nat) :
    (h.report bytes capacity).strategy = h.strategy := by
  obtain ⟨predictor, record⟩ := h
  cases predictor <;> rfl

theorem strategy_reports (h : RecvHandle) (rs : List (Nat × Nat)) :
    (h.reports rs).strategy = h.strategy := by
  induction rs generalizing h with
  | nil => rfl
  | cons r rs ih => exact (ih _).trans (h.strategy_report r.1 r.2)

end RecvHandle

namespace HandleHost

variable {σ ρ : Type}

/-! ## The log of the reads -/

/-- The closure, keeping a log of its calls. -/
def noting (read : Nat → ρ → σ → ReadStep ρ σ) (capacity : Nat) (r : ρ × List (Seen σ)) (s : σ) :
    ReadStep (ρ × List (Seen σ)) σ :=
  let step := read capacity r.1 s
  ⟨step.result, (step.reader, r.2 ++ [⟨capacity, step.result, step.world⟩]), step.world⟩

/-- The reads of a pass, in their order. -/
def reads (h : HandleHost σ) (keepGoing : σ → Bool) (read : Nat → ρ → σ → ReadStep ρ σ) (i : Nat)
    (r : ρ) (s : σ) : List (Seen σ) :=
  (h.pass keepGoing (noting read) i (r, []) s).reader.2

/-! ## The course -/

/-- The pass on handle `i` from read `done + 1` on: the reads it makes and what it ends with. -/
inductive Course (h : HandleHost σ) (keepGoing : σ → Bool) (read : Nat → ρ → σ → ReadStep ρ σ)
    (i : Nat) : Nat → Nat → ρ → σ → List (Seen σ) → PassEnd ρ σ → Prop where
  /-- A read that fails is the last one, and nothing is reported. -/
  | failed {done total capacity : Nat} {r r' : ρ} {s w : σ} {e : ReadError} :
    (h.handle i s).nextCapacity = capacity → read capacity r s = ⟨.failed e, r', w⟩ →
    Course h keepGoing read i done total r s [⟨capacity, .failed e, w⟩]
      ⟨⟨[capacity], .error e⟩, r', w⟩
  /-- The pass is over after this read. -/
  | stopped {done total capacity : Nat} {r r' : ρ} {s w s' : σ} {result : ReadResult} :
    (h.handle i s).nextCapacity = capacity → read capacity r s = ⟨result, r', w⟩ →
    result.error? = none → h.reportPositive i result.count capacity w = s' →
    (keepGoing s' && (h.handle i s').shouldContinue (done + 1) result.count) = false →
    Course h keepGoing read i done total r s [⟨capacity, result, w⟩]
      ⟨⟨[capacity], .ok ⟨done + 1, total + result.count, result = .bytes 0⟩⟩, r', s'⟩
  /-- The pass goes on after this read. -/
  | continued {done total capacity : Nat} {r r' : ρ} {s w s' : σ} {result : ReadResult}
    {seen : List (Seen σ)} {rest : PassEnd ρ σ} :
    (h.handle i s).nextCapacity = capacity → read capacity r s = ⟨result, r', w⟩ →
    result.error? = none → h.reportPositive i result.count capacity w = s' →
    (keepGoing s' && (h.handle i s').shouldContinue (done + 1) result.count) = true →
    Course h keepGoing read i (done + 1) (total + result.count) r' s' seen rest →
    Course h keepGoing read i done total r s (⟨capacity, result, w⟩ :: seen)
      { rest with report := { rest.report with offered := capacity :: rest.report.offered } }

section Exists

variable (h : HandleHost σ) (keepGoing : σ → Bool) (read : Nat → ρ → σ → ReadStep ρ σ)
  (i done total : Nat) {capacity : Nat} {r r' : ρ} {s w : σ} {result : ReadResult}

theorem passFrom_of_failed {e : ReadError} (hoffer : (h.handle i s).nextCapacity = capacity)
    (hread : read capacity r s = ⟨.failed e, r', w⟩) :
    h.passFrom keepGoing read i done total r s = ⟨⟨[capacity], .error e⟩, r', w⟩ := by
  subst hoffer
  rw [passFrom]
  simp only [hread]

/-- After a read that did not fail there is the question whether to go on. -/
theorem passFrom_of_read (hoffer : (h.handle i s).nextCapacity = capacity)
    (hread : read capacity r s = ⟨result, r', w⟩) (herror : result.error? = none) {s' : σ}
    (hreport : h.reportPositive i result.count capacity w = s') :
    h.passFrom keepGoing read i done total r s =
      if keepGoing s' && (h.handle i s').shouldContinue (done + 1) result.count then
        let rest := h.passFrom keepGoing read i (done + 1) (total + result.count) r' s'
        { rest with report := { rest.report with offered := capacity :: rest.report.offered } }
      else
        ⟨⟨[capacity], .ok ⟨done + 1, total + result.count, result = .bytes 0⟩⟩, r', s'⟩ := by
  subst hoffer hreport
  rw [passFrom]
  cases result with
  | failed e => cases herror
  | bytes n =>
    simp only [hread]
    rfl
  | wouldBlock =>
    simp only [hread]
    rfl

theorem noting_of_read (hread : read capacity r s = ⟨result, r', w⟩) (log : List (Seen σ)) :
    noting read capacity (r, log) s = ⟨result, (r', log ++ [⟨capacity, result, w⟩]), w⟩ := by
  simp only [noting, hread]

/-- A pass has a course, and its reads are what the log has gained. -/
theorem exists_course (r : ρ) (s : σ) :
    let pass := h.passFrom keepGoing read i done total r s
    ∃ seen, Course h keepGoing read i done total r s seen pass ∧
      ∀ log, h.passFrom keepGoing (noting read) i done total (r, log) s =
        ⟨pass.report, (pass.reader, log ++ seen), pass.world⟩ := by
  -- Every further read brings the count closer to the bound of all limits.
  induction hn : UInt32.size - done using Nat.strongRecOn generalizing done total r s with
  | ind n ih =>
    obtain ⟨capacity, hoffer⟩ : ∃ capacity, (h.handle i s).nextCapacity = capacity := ⟨_, rfl⟩
    obtain ⟨⟨result, r', w⟩, hread⟩ : ∃ step, read capacity r s = step := ⟨_, rfl⟩
    have hnoting := noting_of_read read hread
    cases herror : result.error? with
    | some e =>
      obtain rfl := ReadResult.eq_failed herror
      rw [passFrom_of_failed h keepGoing read i done total hoffer hread]
      refine ⟨_, .failed hoffer hread, fun log => ?_⟩
      exact passFrom_of_failed h keepGoing (noting read) i done total hoffer (hnoting log)
    | none =>
      obtain ⟨s', hreport⟩ : ∃ s', h.reportPositive i result.count capacity w = s' := ⟨_, rfl⟩
      have hlog := fun log => passFrom_of_read h keepGoing (noting read) i done total hoffer
        (hnoting log) herror hreport
      rw [passFrom_of_read h keepGoing read i done total hoffer hread herror hreport]
      cases hgo : keepGoing s' && (h.handle i s').shouldContinue (done + 1) result.count with
      | false =>
        refine ⟨_, .stopped hoffer hread herror hreport hgo, fun log => ?_⟩
        rw [hlog, hgo]
        rfl
      | true =>
        have hlt := RecvHandle.lt_of_shouldContinue (Bool.and_eq_true_iff.1 hgo).2
        obtain ⟨seen, hcourse, hrest⟩ :=
          ih _ (by omega) (done + 1) (total + result.count) r' s' rfl
        refine ⟨_, .continued hoffer hread herror hreport hgo hcourse, fun log => ?_⟩
        rw [hlog, hgo, hrest]
        simp only [if_true, List.append_assoc, List.singleton_append]

theorem pass_course (r : ρ) (s : σ) :
    Course h keepGoing read i 0 0 r (h.modify i (·.reset) s) (h.reads keepGoing read i r s)
      (h.pass keepGoing read i r s) := by
  obtain ⟨seen, hcourse, hlog⟩ :=
    exists_course h keepGoing read i 0 0 r (h.modify i (·.reset) s)
  have hreads : h.reads keepGoing read i r s = seen := by
    rw [reads, pass, hlog, List.nil_append]
  rw [hreads]
  exact hcourse

end Exists

/-! ## Along the course -/

/-- To show something of every element of a list, with what comes before and after it, show it of
the first one and of every element of the rest. -/
theorem forall_split {α : Type} {P : List α → α → List α → Prop} {y : α} {rest : List α}
    (hfirst : P [] y rest)
    (hrest : ∀ before x after, rest = before ++ x :: after → P (y :: before) x after) :
    ∀ before x after, y :: rest = before ++ x :: after → P before x after := by
  intro before x after hx
  obtain ⟨rfl, hx⟩ | ⟨before', rfl, hx⟩ := List.cons_eq_append_iff.1 hx
  · obtain ⟨rfl, rfl⟩ := List.cons.inj hx
    exact hfirst
  · exact hrest before' x after (List.cons.inj hx).2

theorem forall_split_singleton {α : Type} {P : List α → α → List α → Prop} {y : α}
    (hfirst : P [] y []) : ∀ before x after, [y] = before ++ x :: after → P before x after :=
  forall_split hfirst fun before x after hx => by simp at hx

namespace Course

variable {h : HandleHost σ} {keepGoing : σ → Bool} {read : Nat → ρ → σ → ReadStep ρ σ}
  {i done total : Nat} {r : ρ} {s : σ} {seen : List (Seen σ)} {pass : PassEnd ρ σ}

theorem offered (hc : Course h keepGoing read i done total r s seen pass) :
    pass.report.offered = seen.map (·.capacity) := by
  induction hc with
  | failed => rfl
  | stopped => rfl
  | continued _ _ _ _ _ _ ih => exact congrArg (List.cons _) ih

theorem ne_nil (hc : Course h keepGoing read i done total r s seen pass) : seen ≠ [] := by
  cases hc <;> exact List.cons_ne_nil _ _

/-- A read is followed by another exactly if it did not fail, the switch is on, and the handle says
so. The switch and the handle are asked after the read has been reported. -/
theorem goes_on (hc : Course h keepGoing read i done total r s seen pass) :
    ∀ before x after, seen = before ++ x :: after →
      let s' := h.reportPositive i x.result.count x.capacity x.world
      after ≠ [] ↔ x.result.error? = none ∧
        (keepGoing s' && (h.handle i s').shouldContinue (done + before.length + 1) x.result.count)
          = true := by
  induction hc with
  | failed => exact forall_split_singleton (by simp [ReadResult.error?])
  | stopped _ _ _ hreport hstop =>
    subst hreport
    exact forall_split_singleton (by simp [hstop])
  | @continued done _ _ _ _ _ _ _ _ _ _ _ _ herror hreport hgo hrest ih =>
    subst hreport
    refine forall_split (iff_of_true hrest.ne_nil ⟨herror, hgo⟩) fun before x after hx => ?_
    rw [List.length_cons, ← Nat.add_assoc done, Nat.add_right_comm done]
    exact ih before x after hx

/-- What one read keeps is kept along the pass: if from a world that is as `Head` says of the reads
so far every read is as `Told` says, and leaves such a world again once it is reported, then all
reads are so, and so is the world in the end. -/
theorem along {Head : List (Seen σ) → σ → Prop} {Told : List (Seen σ) → Seen σ → Prop}
    (hread : ∀ {past r r' s w result}, Head past s →
      read (h.handle i s).nextCapacity r s = ⟨result, r', w⟩ →
      let x : Seen σ := ⟨(h.handle i s).nextCapacity, result, w⟩
      Told past x ∧ Head (past ++ [x]) (h.reportPositive i result.count x.capacity w))
    (hc : Course h keepGoing read i done total r s seen pass) {past : List (Seen σ)}
    (hs : Head past s) :
    (∀ before x after, seen = before ++ x :: after → Told (past ++ before) x) ∧
      Head (past ++ seen) pass.world := by
  induction hc generalizing past with
  | failed hoffer hstep =>
    subst hoffer
    obtain ⟨hfirst, hend⟩ := hread hs hstep
    exact ⟨forall_split_singleton (by simpa using hfirst), hend⟩
  | stopped hoffer hstep _ hreport =>
    subst hoffer hreport
    obtain ⟨hfirst, hend⟩ := hread hs hstep
    exact ⟨forall_split_singleton (by simpa using hfirst), hend⟩
  | continued hoffer hstep _ hreport _ _ ih =>
    subst hoffer hreport
    obtain ⟨hfirst, hnext⟩ := hread hs hstep
    obtain ⟨hrest, hend⟩ := ih hnext
    rw [List.append_assoc] at hend
    refine ⟨forall_split (by simpa using hfirst) fun before x after hx => ?_, hend⟩
    simpa using hrest before x after hx

end Course

end HandleHost

end FlowControl
