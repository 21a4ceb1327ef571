import FlowControl.Proofs.Sizing.Capacity
import FlowControl.Proofs.Sizing.Pass
import FlowControl.Proofs.Sizing.Session

/-!
# Passes over given results

Where the client's closure does nothing but read, a pass depends only on the handle it begins with
and on the results of the reads. This module says how: which read is the last one
(`RecvHandle.LastRead`), what is offered to each, what the pass returns and what it leaves
(`SizingSession.pass_results`).

The rule for going on is asked of the handle after the read has been reported to it. An empty read
is not reported, so there the handle still has the capacity of the read before, or none at the start
of a pass; that no such read is followed by another rests on the count alone. A read that is
reported leaves its own capacity in the handle, so there the rule compares the count with what was
offered. As every capacity is positive, both say the same: the read returned less than was offered.
-/

set_option autoImplicit false

namespace FlowControl

namespace RecvHandle

/-- The handle once it has been told of a read: nothing of one that was empty or failed. -/
def told (result : ReadResult) (h : RecvHandle) : RecvHandle :=
  if result.count = 0 then h else h.report result.count h.nextCapacity

/-- The handle in a pass, before the read with the number `n`: the last read of the time before is
forgotten, and the results of the reads `0, …, n - 1` have been told. -/
def atRead (results : Nat → ReadResult) (h : RecvHandle) : Nat → RecvHandle
  | 0 => h.reset
  | n + 1 => (h.atRead results n).told (results n)

/-- What the first `n` reads of a pass are offered. -/
def offers (results : Nat → ReadResult) (h : RecvHandle) (n : Nat) : List Nat :=
  (List.range n).map fun j => (h.atRead results j).nextCapacity

/-- No read may follow the one with the number `n`: it fails, it returns fewer bytes than it is
offered, or the limit is reached. -/
def LastRead (results : Nat → ReadResult) (h : RecvHandle) (n : Nat) : Prop :=
  (∃ e, results n = .failed e) ∨ (results n).count < (h.atRead results n).nextCapacity
    ∨ h.limit.toNat ≤ n + 1

variable {results : Nat → ReadResult} {h : RecvHandle} {result : ReadResult} {n : Nat}

theorem offers_succ (results : Nat → ReadResult) (h : RecvHandle) (n : Nat) :
    h.offers results (n + 1) = h.offers results n ++ [(h.atRead results n).nextCapacity] := by
  rw [offers, List.range_succ, List.map_append]
  rfl

theorem length_offers (results : Nat → ReadResult) (h : RecvHandle) (n : Nat) :
    (h.offers results n).length = n := by
  rw [offers, List.length_map, List.length_range]

theorem limit_told (result : ReadResult) (h : RecvHandle) : (h.told result).limit = h.limit := by
  unfold told
  split <;> rfl

theorem strategy_told (result : ReadResult) (h : RecvHandle) :
    (h.told result).strategy = h.strategy := by
  unfold told
  split
  · rfl
  · exact h.strategy_report _ _

theorem limit_atRead (results : Nat → ReadResult) (h : RecvHandle) (n : Nat) :
    (h.atRead results n).limit = h.limit := by
  induction n with
  | zero => rfl
  | succ n ih => exact (limit_told _ _).trans ih

theorem strategy_atRead (results : Nat → ReadResult) (h : RecvHandle) (n : Nat) :
    (h.atRead results n).strategy = h.strategy := by
  induction n with
  | zero => rfl
  | succ n ih => exact (strategy_told _ _).trans ih

theorem strategy_use (h : RecvHandle) (u : Use) : (h.use u).strategy = h.strategy := by
  cases u with
  | report bytes capacity => exact h.strategy_report bytes capacity
  | reset => rfl
  | limit => rfl

theorem strategy_useAll (h : RecvHandle) (us : List Use) :
    (h.useAll us).strategy = h.strategy := by
  induction us generalizing h with
  | nil => rfl
  | cons u rest ih => exact (ih (h.use u)).trans (h.strategy_use u)

theorem strategy_ofStrategy (st : Strategy) : (ofStrategy st).strategy = st := by
  cases st <;> rfl

/-- The rule for going on, read off the handle that the read has been told to. -/
theorem shouldContinue_told (hpos : 0 < h.nextCapacity) (done : Nat) :
    (h.told result).shouldContinue done result.count = true
      ↔ h.nextCapacity ≤ result.count ∧ done < h.limit.toNat := by
  have hlimit := h.limit_told result
  simp only [shouldContinue, Bool.and_eq_true, decide_eq_true_eq, hlimit]
  unfold told
  split
  case isTrue hzero => omega
  case isFalse hread =>
    have hcapacity : (h.report result.count h.nextCapacity).record.lastCapacity = h.nextCapacity :=
      rfl
    rw [hcapacity]
    omega

theorem lastRead_iff (hpos : 0 < h.strategy.minimum) (herror : (results n).error? = none) :
    h.LastRead results n
      ↔ (h.atRead results (n + 1)).shouldContinue (n + 1) (results n).count = false := by
  have hcapacity : 0 < (h.atRead results n).nextCapacity := by
    have hmin := (h.atRead results n).minimum_le_nextCapacity
    rw [strategy_atRead] at hmin
    exact Nat.lt_of_lt_of_le hpos hmin
  have hfailed : ¬ ∃ e, results n = .failed e := by
    rintro ⟨e, he⟩
    rw [he] at herror
    cases herror
  rw [← Bool.not_eq_true, atRead, shouldContinue_told hcapacity, limit_atRead, LastRead,
    or_iff_right hfailed]
  omega

end RecvHandle

namespace SizingSession

open HandleHost

variable {results : Nat → ReadResult} {h : RecvHandle} {handles : List RecvHandle}
  {i done total : Nat}

/-- A closure that does nothing but read. It keeps the capacities it was offered. -/
def given (results : Nat → ReadResult) (capacity : Nat) (seen : List Nat) (s : SizingSession) :
    ReadStep (List Nat) SizingSession :=
  ⟨results seen.length, seen ++ [capacity], s⟩

/-- Telling a read to the handle in use is telling it to the handle in the session. -/
theorem reportPositive_handles {s : SizingSession} {result : ReadResult} (hi : i < handles.length)
    (hs : s.handles = handles.set i h) :
    (host.reportPositive i result.count h.nextCapacity s).handles
      = handles.set i (h.told result) := by
  unfold HandleHost.reportPositive RecvHandle.told
  split
  · exact hs
  · rw [report_handles, handleAt_of_set hi hs, hs, List.set_set]

/-- What the first `n` reads return altogether. -/
def totalCount (results : Nat → ReadResult) (n : Nat) : Nat :=
  ((List.range n).map fun j => (results j).count).sum

/-- What a pass has done that ended with the read `n`: what its reads were offered, what it
returned, and the handles it left. -/
structure PassResult (results : Nat → ReadResult) (handles : List RecvHandle) (i : Nat)
    (h : RecvHandle) (n : Nat) (pass : PassEnd (List Nat) SizingSession) : Prop where
  seen : pass.reader = h.offers results (n + 1)
  returned : pass.report.result = match results n with
    | .failed e => .error e
    | last => .ok ⟨n + 1, totalCount results (n + 1), last = .bytes 0⟩
  left : pass.world.handles = handles.set i (h.atRead results (n + 1))

theorem totalCount_succ (results : Nat → ReadResult) (n : Nat) :
    totalCount results (n + 1) = totalCount results n + (results n).count := by
  rw [totalCount, List.range_succ, List.map_append, List.sum_append]
  simp [totalCount]

theorem given_offers {capacity : Nat} {result : ReadResult} {r : List Nat} {s w : SizingSession}
    (hread : given results capacity (h.offers results done) s = ⟨result, r, w⟩) :
    results done = result ∧ h.offers results done ++ [capacity] = r ∧ s = w := by
  rw [given, RecvHandle.length_offers] at hread
  cases hread
  exact ⟨rfl, rfl, rfl⟩

/-- The closure is asked once for every capacity that was offered. -/
theorem reader_eq_append {seen : List Nat} {s : SizingSession} {reads : List (Seen SizingSession)}
    {pass : PassEnd (List Nat) SizingSession}
    (hc : Course host.toHandleHost (fun _ => true) (given results) i done total seen s reads pass) :
    pass.reader = seen ++ pass.report.offered := by
  induction hc with
  | failed _ hread => exact (congrArg ReadStep.reader hread).symm
  | stopped _ hread => exact (congrArg ReadStep.reader hread).symm
  | continued _ hread _ _ _ _ ih =>
    cases hread
    exact ih.trans (List.append_assoc _ _ _)

/-- Along the course the handle is as the results so far have left it, so the course ends with the
first read that no other may follow. -/
theorem course_results (hpos : 0 < h.strategy.minimum) (hi : i < handles.length)
    {seen : List Nat} {s : SizingSession} {reads : List (Seen SizingSession)}
    {pass : PassEnd (List Nat) SizingSession}
    (hc : Course host.toHandleHost (fun _ => true) (given results) i done total seen s reads pass)
    (hseen : seen = h.offers results done) (htotal : total = totalCount results done)
    (hs : s.handles = handles.set i (h.atRead results done)) :
    ∃ n, done ≤ n ∧ (∀ m, done ≤ m → m < n → ¬ h.LastRead results m) ∧ h.LastRead results n
      ∧ PassResult results handles i h n pass := by
  induction hc with
  | @failed done total capacity seen _ s _ e hoffer hread =>
    subst hseen hoffer
    obtain ⟨hresult, rfl, rfl⟩ := given_offers hread
    have hoffered : host.handle i s = h.atRead results done := handleAt_of_set hi hs
    have htold : (h.atRead results done).told (results done) = h.atRead results done := by
      rw [hresult]
      rfl
    refine ⟨done, Nat.le_refl _, fun m hge hlt => by omega, .inl ⟨e, hresult⟩, ?_, ?_, ?_⟩
    · rw [hoffered, RecvHandle.offers_succ]
    · rw [hresult]
    · rw [RecvHandle.atRead, htold]
      exact hs
  | @stopped done total capacity seen _ s _ s' result hoffer hread herror hreport hstop =>
    subst hseen hoffer htotal
    obtain ⟨rfl, rfl, rfl⟩ := given_offers hread
    have hoffered : host.handle i s = h.atRead results done := handleAt_of_set hi hs
    rw [hoffered] at hreport ⊢
    have hs' : s'.handles = handles.set i (h.atRead results (done + 1)) :=
      hreport ▸ reportPositive_handles hi hs
    have hlast : h.LastRead results done := by
      rw [RecvHandle.lastRead_iff hpos herror, ← handleAt_of_set hi hs']
      exact hstop
    refine ⟨done, Nat.le_refl _, fun m hge hlt => by omega, hlast, ?_, ?_, hs'⟩
    · rw [RecvHandle.offers_succ]
    · rw [totalCount_succ]
      cases hresult : results done with
      | failed e =>
        rw [hresult] at herror
        cases herror
      | bytes n => rfl
      | wouldBlock => rfl
  | @continued done total capacity seen _ s _ s' result reads rest hoffer hread herror hreport hgo
      hrest ih =>
    subst hseen hoffer htotal
    obtain ⟨rfl, rfl, rfl⟩ := given_offers hread
    have hoffered : host.handle i s = h.atRead results done := handleAt_of_set hi hs
    rw [hoffered] at hreport ih
    have hs' : s'.handles = handles.set i (h.atRead results (done + 1)) :=
      hreport ▸ reportPositive_handles hi hs
    have hmore : ¬ h.LastRead results done := by
      rw [RecvHandle.lastRead_iff hpos herror, ← handleAt_of_set hi hs', Bool.not_eq_false]
      exact hgo
    obtain ⟨n, hn, hbefore, hlast, hpass⟩ :=
      ih (RecvHandle.offers_succ _ _ _).symm (totalCount_succ _ _).symm hs'
    refine ⟨n, by omega, fun m hge hlt => ?_, hlast, hpass.seen, hpass.returned, hpass.left⟩
    rcases Nat.eq_or_lt_of_le hge with rfl | hgt
    · exact hmore
    · exact hbefore m hgt hlt

/-- A pass with a closure that only reads makes exactly the reads up to the first that no other may
follow. Each read is offered what the handle predicts after the reports of the reads before; the
pass returns the error of its last read, or else the number of its reads, the sum of their counts
and whether the last was the end of the stream; and it leaves the handle as it is after a reset and
the reports of the reads that were not empty. -/
theorem pass_results {st : Strategy} (hst : st.Made) (us : List RecvHandle.Use)
    (results : Nat → ReadResult) {s : SizingSession} {i : Nat}
    (hi : s.handles[i]? = some ((RecvHandle.ofStrategy st).useAll us)) :
    let h := (RecvHandle.ofStrategy st).useAll us
    let pass := host.pass (fun _ => true) (given results) i [] s
    pass.report.offered = pass.reader
      ∧ ∃ n, (∀ m < n, ¬ h.LastRead results m) ∧ h.LastRead results n
        ∧ PassResult results s.handles i h n pass := by
  intro h pass
  have hpos : 0 < h.strategy.minimum := by
    rw [RecvHandle.strategy_useAll, RecvHandle.strategy_ofStrategy]
    exact hst.minimum_pos
  obtain ⟨hlt, hget⟩ := List.getElem?_eq_some_iff.1 hi
  have hreset : (host.modify i (·.reset) s).handles = s.handles.set i (h.atRead results 0) := by
    have hat : s.handleAt i = h := by
      rw [handleAt, List.getD_eq_getElem?_getD, hi, Option.getD_some]
    exact congrArg (fun g : RecvHandle => s.handles.set i g.reset) hat
  have hcourse := pass_course host.toHandleHost (fun _ => true) (given results) i [] s
  obtain ⟨n, -, hbefore, hlast, hpass⟩ := course_results hpos hlt hcourse rfl rfl hreset
  exact ⟨(reader_eq_append hcourse).symm, n, fun m hm => hbefore m (Nat.zero_le m) hm, hlast, hpass⟩

/-- Two full reads and the end of the stream, within the limit of five reads. The last read is
offered the largest buffer and leaves no trace. -/
theorem pass_results_three :
    let us : List RecvHandle.Use := [.report 100 2048, .limit 5]
    let h := (RecvHandle.ofStrategy .standard).useAll us
    let s : SizingSession := { start .standard with handles := [h] }
    let results : Nat → ReadResult := fun j => .bytes ([2048, 32768].getD j 0)
    let pass := host.pass (fun _ => true) (given results) 0 [] s
    Strategy.Made .standard ∧ s.handles[0]? = some h ∧ pass.reader = [2048, 32768, 65536]
      ∧ pass.report.result = .ok ⟨3, 34816, true⟩
      ∧ pass.world.handles = [(h.reset.report 2048 2048).report 32768 32768] := by
  intro us h s results pass
  have hst : Strategy.Made .standard := .ofBounds (rfl : Strategy.ofBounds 64 2048 65536 = _)
  obtain ⟨-, n, hbefore, hlast, hpass⟩ := pass_results hst us results (rfl : s.handles[0]? = some h)
  obtain rfl : n = 2 := by
    have hend : h.LastRead results 2 := .inr (.inl (by decide))
    have hge : n ≤ 2 := Nat.le_of_not_lt fun hlt => hbefore 2 hlt hend
    rcases (by omega : n = 0 ∨ n = 1 ∨ n = 2) with rfl | rfl | rfl
    · rcases hlast with ⟨e, he⟩ | hless | hlimit
      · cases he
      · exact absurd hless (by decide)
      · exact absurd hlimit (by decide)
    · rcases hlast with ⟨e, he⟩ | hless | hlimit
      · cases he
      · exact absurd hless (by decide)
      · exact absurd hlimit (by decide)
    · rfl
  refine ⟨hst, rfl, ?_, ?_, ?_⟩
  · exact hpass.seen.trans (by decide)
  · exact hpass.returned.trans (by decide)
  · exact hpass.left.trans (by decide)

end SizingSession

end FlowControl
