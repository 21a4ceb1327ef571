import FlowControl.Proofs.Sizing.Session
import FlowControl.Proofs.Sizing.Shrinking

/-!
# What the log says of a report

A handle writes a line into the log when a report moves it to another index of the table. Who reads
the log has never heard of indices; what he is told are two capacities. So the line should be there
exactly when the capacity has changed, and that is not what the handle looks at.

It comes to the same because two indices that the bounds allow never offer the same capacity, though
each capacity is brought back to the bounds first: only the smallest index can have a size outside,
and the capacities rise from there on (`AdaptiveSizing.Bounded.capacityAt_eq_iff`). This is what the
last index is cut off for when its size is beyond the maximum.
-/

set_option autoImplicit false

namespace FlowControl

namespace AdaptiveSizing

variable {a : AdaptiveSizing} {i j : Nat}

/-- No two indices that the bounds allow offer the same capacity. -/
theorem Bounded.capacityAt_eq_iff (hb : a.Bounded) (hi : a.minIndex ≤ i ∧ i ≤ a.maxIndex)
    (hj : a.minIndex ≤ j ∧ j ≤ a.maxIndex) : a.capacityAt i = a.capacityAt j ↔ i = j := by
  refine ⟨fun hsame => ?_, fun hij => congrArg a.capacityAt hij⟩
  rcases Nat.lt_trichotomy i j with hlt | heq | hgt
  · exact absurd hsame (Nat.ne_of_lt (hb.capacityAt_lt hi.1 hlt hj.2))
  · exact heq
  · exact absurd hsame.symm (Nat.ne_of_lt (hb.capacityAt_lt hj.1 hgt hi.2))

end AdaptiveSizing

namespace RecvHandle

variable {a : AdaptiveSizing} {h : RecvHandle}

theorem inRange_useAll (hb : a.Bounded) (us : List Use) :
    ((ofStrategy (.adaptive a)).useAll us).InRange a := by
  obtain ⟨index, armed, hk⟩ := (keeps_ofStrategy hb).useAll hb us
  exact ⟨index, armed, hk.predictor, hk.minIndex_le, hk.le_maxIndex⟩

/-- The line about a report, told by capacities. -/
theorem InRange.resize?_eq (hb : a.Bounded) (hr : h.InRange a) (bytes capacity : Nat) :
    h.resize? bytes capacity =
      if h.nextCapacity = (h.report bytes capacity).nextCapacity then none
      else some (.bufferResized bytes capacity h.nextCapacity
        (h.report bytes capacity).nextCapacity) := by
  obtain ⟨index, armed, hp, hge, hle⟩ := hr
  have hafter := report_predictor hp bytes capacity
  have hrange := hb.advance_range hge hle armed bytes capacity
  have hmoved : h.predictor.moved (h.report bytes capacity).predictor = true
      ↔ h.nextCapacity ≠ (h.report bytes capacity).nextCapacity := by
    rw [nextCapacity_eq hp, nextCapacity_eq hafter, Ne, hb.capacityAt_eq_iff ⟨hge, hle⟩ hrange, hp,
      hafter, Predictor.moved, bne_iff_ne]
  by_cases hsame : h.nextCapacity = (h.report bytes capacity).nextCapacity
  · rw [if_pos hsame]
    exact if_neg fun hm => hmoved.1 hm hsame
  · rw [if_neg hsame]
    exact if_pos (hmoved.2 hsame)

end RecvHandle

namespace SizingSession

/-- The session after a series of reports to the handle with number `i`. -/
def reports (i : Nat) (rs : List (Nat × Nat)) (s : SizingSession) : SizingSession :=
  rs.foldl (fun s r => host.report i r.1 r.2 s) s

variable {s : SizingSession} {i : Nat} {h : RecvHandle}

theorem getElem?_report (hi : s.handles[i]? = some h) (bytes capacity : Nat) :
    (host.report i bytes capacity s).handles[i]? = some (h.report bytes capacity) := by
  rw [report_eq, handleAt_of_getElem? hi]
  exact List.getElem?_set_self (List.getElem?_eq_some_iff.1 hi).1

/-- Reports to a handle that has some history make that history longer. -/
theorem getElem?_reports {st : Strategy} {us : List RecvHandle.Use}
    (hi : s.handles[i]? = some ((RecvHandle.ofStrategy st).useAll us)) (rs : List (Nat × Nat)) :
    ∃ vs, (s.reports i rs).handles[i]? = some ((RecvHandle.ofStrategy st).useAll vs) := by
  induction rs generalizing s us with
  | nil => exact ⟨us, hi⟩
  | cons r rest ih =>
    have hlonger := RecvHandle.useAll_concat us (.report r.1 r.2) (.ofStrategy st)
    exact ih ((getElem?_report hi r.1 r.2).trans (congrArg some hlonger.symm))

theorem notices_report {a : AdaptiveSizing} (hb : a.Bounded) (hr : (s.handleAt i).InRange a)
    (bytes capacity : Nat) :
    let before := (s.handleAt i).nextCapacity
    let after := ((s.handleAt i).report bytes capacity).nextCapacity
    (host.report i bytes capacity s).notices = s.notices
      ++ if before = after then [] else [.bufferResized bytes capacity before after] := by
  intro before after
  rw [report_eq]
  dsimp only
  rw [hr.resize?_eq hb]
  by_cases hsame : before = after
  · rw [if_pos hsame, if_pos hsame]
    rfl
  · rw [if_neg hsame, if_neg hsame]
    rfl

/-- Whatever has been done with a handle of accepted bounds, and however many reports have been made
since: a further report writes one line into the log if it changes the capacity and none if it does
not, and the line tells the capacities before and after it. -/
theorem report_notices {minimum initial maximum : Nat} {st : Strategy}
    (hst : Strategy.ofBounds minimum initial maximum = .ok st) (us : List RecvHandle.Use)
    (hi : s.handles[i]? = some ((RecvHandle.ofStrategy st).useAll us)) (rs : List (Nat × Nat))
    (bytes capacity : Nat) :
    let reported := s.reports i rs
    let s' := host.report i bytes capacity reported
    let before := (reported.handleAt i).nextCapacity
    let after := (s'.handleAt i).nextCapacity
    s'.notices = reported.notices
      ++ if before = after then [] else [.bufferResized bytes capacity before after] := by
  obtain ⟨⟨-, hmin, hmax⟩, rfl⟩ := Strategy.ofBounds_eq_ok_iff.1 hst
  intro reported s' before after
  have hb := AdaptiveSizing.bounded_within hmin hmax
  obtain ⟨vs, hvs⟩ := getElem?_reports hi rs
  have hat : reported.handleAt i = _ := handleAt_of_getElem? hvs
  have hrange : (reported.handleAt i).InRange (.within minimum initial maximum) :=
    hat ▸ RecvHandle.inRange_useAll hb vs
  have hafter : after = ((reported.handleAt i).report bytes capacity).nextCapacity := by
    rw [hat]
    exact congrArg RecvHandle.nextCapacity (handleAt_of_getElem? (getElem?_report hvs _ _))
  rw [hafter]
  exact notices_report hb hrange bytes capacity

/-- Between the bounds 17 and 50 a handle has two capacities, 32 and 48. The first read that fills
the buffer leads to the larger one, and says so; the second has nothing to say. -/
theorem report_notices_two :
    let st := Strategy.adaptive (.within 17 20 50)
    let s := start st
    let once := host.report 0 32 32 s
    let twice := host.report 0 48 48 once
    Strategy.ofBounds 17 20 50 = .ok st ∧ s.handles[0]? = some (.ofStrategy st)
      ∧ once.notices = [.bufferResized 32 32 32 48] ∧ twice.notices = once.notices := by
  intro st s once twice
  have hst : Strategy.ofBounds 17 20 50 = .ok st := rfl
  have hi : s.handles[0]? = some ((RecvHandle.ofStrategy st).useAll []) := rfl
  have hfirst := report_notices hst [] hi [] 32 32
  have hsecond := report_notices hst [] hi [(32, 32)] 48 48
  refine ⟨hst, hi, hfirst.trans (by decide), hsecond.trans ?_⟩
  have hsame : (once.handleAt 0).nextCapacity = (twice.handleAt 0).nextCapacity := by decide
  exact (congrArg (once.notices ++ ·) (if_pos hsame)).trans (List.append_nil _)

end SizingSession

end FlowControl
