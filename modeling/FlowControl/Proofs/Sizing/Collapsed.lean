import FlowControl.Proofs.Sizing.Bounds
import FlowControl.Proofs.Sizing.Client
import FlowControl.Proofs.Sizing.Session

/-!
# Bounds that leave no choice

An adaptive strategy whose three bounds are one number should be as good as the fixed strategy of
that number. Its handles still search the table, where the number need not be an entry, and go
through all the motions of a handle that adapts. But the search for the minimum and the search for
the maximum are the same search, so they leave one index, which no report can leave
(`AdaptiveSizing.advance_collapsed`); and what is offered there is brought back to the bounds, from
below or from above, so it is that number (`AdaptiveSizing.capacityAt_collapsed`).

What the two handles do not have in common is the flag of a pending decrease, which the adaptive
one still sets and clears. No client can see it.
-/

set_option autoImplicit false

namespace FlowControl

open SizeTable

namespace AdaptiveSizing

variable {n : Nat}

theorem minIndex_collapsed (n : Nat) : (within n n n).minIndex = indexFor n := rfl

theorem maxIndex_collapsed (n : Nat) : (within n n n).maxIndex = indexFor n :=
  if_neg fun hcut => Nat.lt_irrefl _ hcut.2

theorem initialIndex_collapsed (n : Nat) : (within n n n).initialIndex = indexFor n := by
  have hb := bounded_within (Nat.le_refl n) (Nat.le_refl n)
  have hge := hb.minIndex_le_initialIndex
  have hle := hb.initialIndex_le_maxIndex
  rw [minIndex_collapsed] at hge
  rw [maxIndex_collapsed] at hle
  exact Nat.le_antisymm hle hge

/-- Whatever the size at an index, it is brought back to the only capacity between the bounds. -/
theorem capacityAt_collapsed (n index : Nat) : (within n n n).capacityAt index = n :=
  Nat.max_eq_left (Nat.min_le_right _ _)

/-- No report leads away from the only index. -/
theorem advance_collapsed (n : Nat) (armed : Bool) (bytes capacity : Nat) :
    ((within n n n).advance (indexFor n) armed bytes capacity).1 = indexFor n := by
  have hb := bounded_within (Nat.le_refl n) (Nat.le_refl n)
  obtain ⟨hge, hle⟩ := hb.advance_range (i := indexFor n) (Nat.le_refl _)
    (Nat.le_of_eq (maxIndex_collapsed n).symm) armed bytes capacity
  rw [minIndex_collapsed] at hge
  rw [maxIndex_collapsed] at hle
  exact Nat.le_antisymm hle hge

end AdaptiveSizing

namespace RecvHandle

/-- A handle of the collapsed bounds, with its flag. -/
def collapsed (n : Nat) (armed : Bool) (record : ReadRecord) : RecvHandle :=
  ⟨.adaptive (.within n n n) (indexFor n) armed, record⟩

def fixed (n : Nat) (record : ReadRecord) : RecvHandle := ⟨.fixed n, record⟩

variable (n : Nat) (armed : Bool) (record : ReadRecord)

theorem ofStrategy_collapsed :
    ofStrategy (.adaptive (.within n n n)) = collapsed n false .initial := by
  rw [collapsed, ← AdaptiveSizing.initialIndex_collapsed n]
  rfl

/-- The flag does not show. -/
theorem view_collapsed : (collapsed n armed record).view = (fixed n record).view := by
  have hnext : (collapsed n armed record).nextCapacity = n :=
    AdaptiveSizing.capacityAt_collapsed n _
  rw [view, hnext]
  rfl

theorem report_collapsed (bytes capacity : Nat) :
    ∃ armed', (collapsed n armed record).report bytes capacity
      = collapsed n armed' { record with lastBytes := bytes, lastCapacity := capacity } := by
  refine ⟨((AdaptiveSizing.within n n n).advance (indexFor n) armed bytes capacity).2, ?_⟩
  simp only [report, collapsed, Predictor.advance, AdaptiveSizing.advance_collapsed]

theorem resize?_collapsed (bytes capacity : Nat) :
    (collapsed n armed record).resize? bytes capacity = none := by
  refine if_neg ?_
  simp [collapsed, Predictor.advance, Predictor.moved, AdaptiveSizing.advance_collapsed]

end RecvHandle

namespace SizingSession

/-- The sessions of the two strategies, seen from what has been done with their only handles. -/
structure Collapsed (n : Nat) (s t : SizingSession) : Prop where
  handles : ∃ armed record,
    s.handles = [.collapsed n armed record] ∧ t.handles = [.fixed n record]
  adaptive_quiet : s.notices = []
  fixed_quiet : t.notices = []

variable {n : Nat} {s t : SizingSession}

theorem handleAt_of_handles {h : RecvHandle} (hs : s.handles = [h]) : s.handleAt 0 = h :=
  handleAt_of_getElem? (by rw [hs]; rfl)

theorem report_of_handles {h : RecvHandle} (hs : s.handles = [h]) (bytes capacity : Nat) :
    host.report 0 bytes capacity s =
      { s with
        handles := [h.report bytes capacity]
        notices := s.notices ++ (h.resize? bytes capacity).toList } := by
  rw [report_eq, handleAt_of_handles hs, hs]
  rfl

theorem modify_of_handles {h : RecvHandle} (hs : s.handles = [h]) (f : RecvHandle → RecvHandle) :
    host.modify 0 f s = { s with handles := [f h] } := by
  have hhandle : host.handle 0 s = h := handleAt_of_handles hs
  rw [HandleHost.modify, hhandle]
  simp [host, hs]

theorem Collapsed.modify (hst : Collapsed n s t) (f : RecvHandle → RecvHandle)
    (hf : ∀ armed record, ∃ record', f (.collapsed n armed record) = .collapsed n armed record'
      ∧ f (.fixed n record) = .fixed n record') :
    Collapsed n (host.modify 0 f s) (host.modify 0 f t) := by
  obtain ⟨⟨armed, record, hs, ht⟩, hquiet, hquiet'⟩ := hst
  obtain ⟨record', hadaptive, hfixed⟩ := hf armed record
  rw [modify_of_handles hs, modify_of_handles ht, hadaptive, hfixed]
  exact ⟨⟨armed, record', rfl, rfl⟩, hquiet, hquiet'⟩

theorem collapsed_inStep (n : Nat) :
    HandleHost.InStep host.toHandleHost host.toHandleHost 0 0 (Collapsed n) where
  view := by
    rintro s t ⟨⟨armed, record, hs, ht⟩, -, -⟩
    have hadaptive : host.handle 0 s = _ := handleAt_of_handles hs
    have hfixed : host.handle 0 t = _ := handleAt_of_handles ht
    rw [hadaptive, hfixed]
    exact RecvHandle.view_collapsed n armed record
  report := by
    rintro s t ⟨⟨armed, record, hs, ht⟩, hquiet, hquiet'⟩ bytes capacity
    obtain ⟨armed', hreport⟩ := RecvHandle.report_collapsed n armed record bytes capacity
    rw [report_of_handles hs, report_of_handles ht, hreport, RecvHandle.resize?_collapsed, hquiet,
      hquiet']
    exact ⟨⟨armed', _, rfl, rfl⟩, rfl, rfl⟩
  limit hst limit := hst.modify _ fun _ _ => ⟨_, rfl, rfl⟩
  reset hst := hst.modify _ fun _ _ => ⟨_, rfl, rfl⟩

theorem collapsed_start (n : Nat) :
    Collapsed n (start (.adaptive (.within n n n))) (start (.fixed n)) where
  handles := ⟨false, .initial, congrArg (· :: []) (RecvHandle.ofStrategy_collapsed n), rfl⟩
  adaptive_quiet := rfl
  fixed_quiet := rfl

/-- The bounds `n`, `n` and `n` are accepted if the capacity `n` is, and no client can tell a handle
of these bounds from one that is fixed. Whatever it does, the answers are the same and the handles
show the same in the end; and neither of them ever writes to the log. -/
theorem run_collapsed {n : Nat} (hn : 0 < n) :
    ∃ adaptive fixed, Strategy.ofBounds n n n = .ok adaptive ∧ Strategy.ofCapacity n = .ok fixed
      ∧ ∀ {α : Type} (c : Client α),
          let a := c.run host.toHandleHost 0 (start adaptive)
          let f := c.run host.toHandleHost 0 (start fixed)
          a.1 = f.1 ∧ (a.2.handleAt 0).view = (f.2.handleAt 0).view
            ∧ a.2.notices = [] ∧ f.2.notices = [] := by
  have hbounds : Strategy.ofBounds n n n = .ok (.adaptive (.within n n n)) :=
    Strategy.ofBounds_eq_ok_iff.2 ⟨⟨hn, Nat.le_refl n, Nat.le_refl n⟩, rfl⟩
  have hcapacity : Strategy.ofCapacity n = .ok (.fixed n) := if_neg (Nat.ne_of_gt hn)
  refine ⟨_, _, hbounds, hcapacity, fun c => ?_⟩
  obtain ⟨hanswer, hleft⟩ := c.run_inStep (collapsed_inStep n) (collapsed_start n)
  exact ⟨hanswer, (collapsed_inStep n).view hleft, hleft.adaptive_quiet, hleft.fixed_quiet⟩

/-- 100 is no entry of the table. A report far beyond the buffer and a pass whose closure raises the
limit, reports on its own account and fills the buffer are answered as by a fixed handle. -/
theorem run_collapsed_hundred :
    let closure : Nat → Nat → Client (ReadResult × Nat) := fun capacity r =>
      .setLimit 3 (.report 5 capacity (.done (.bytes capacity.toUInt32, r + 1)))
    let c : Client (List Nat × Nat) :=
      .report 3000 100 (.setLimit 0 (.pass closure 0 fun report r => .done (report.offered, r)))
    let adaptive := Strategy.adaptive (.within 100 100 100)
    0 < 100 ∧ Strategy.ofBounds 100 100 100 = .ok adaptive
      ∧ (c.run host.toHandleHost 0 (start adaptive)).1 = ([100, 100, 100], 3) := by
  intro closure c adaptive
  obtain ⟨adaptive', fixed, hadaptive, hfixed, hsame⟩ := run_collapsed (n := 100) (by decide)
  obtain rfl : adaptive' = adaptive := (Except.ok.inj hadaptive).symm
  obtain rfl : fixed = .fixed 100 := (Except.ok.inj hfixed).symm
  exact ⟨by decide, hadaptive, (hsame c).1.trans (by decide +kernel)⟩

end SizingSession

end FlowControl
