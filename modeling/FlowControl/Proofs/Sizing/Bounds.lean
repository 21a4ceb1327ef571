import FlowControl.Sizing.Handle

/-!
# Bounds and the indices they allow

The bounds of an adaptive strategy are bytes, and its handles move along indices of the table.
`AdaptiveSizing.Bounded` says how the two hang together: before the smallest index every size is too
small, and behind it, up to the largest, every size lies within the bounds. Only the smallest index
itself may have a size outside, so only there is a capacity ever brought back to a bound.

Reports move a handle within the indices, whatever they report (`RecvHandle.InRange.reports`).
-/

set_option autoImplicit false

namespace FlowControl

namespace SizeTable

theorem indexFor_le_indexFor {m n : Nat} (h : m ≤ n) : indexFor m ≤ indexFor n := by
  apply Nat.le_of_not_lt
  intro hlt
  have hsmall : sizeAt (indexFor n) < m := sizeAt_lt_of_lt_indexFor hlt
  have hlarge : n ≤ sizeAt (indexFor n) :=
    le_sizeAt_indexFor_of_lt (Nat.lt_of_lt_of_le hlt (indexFor_le_lastIndex m))
  omega

end SizeTable

open SizeTable

namespace AdaptiveSizing

/-- The indices of a strategy are those of its bounds. -/
structure Bounded (a : AdaptiveSizing) : Prop where
  minIndex_le_initialIndex : a.minIndex ≤ a.initialIndex
  initialIndex_le_maxIndex : a.initialIndex ≤ a.maxIndex
  maxIndex_le_lastIndex : a.maxIndex ≤ lastIndex
  minimum_le_maximum : a.minimum ≤ a.maximum
  /-- Before the smallest index the sizes are too small. -/
  sizeAt_lt_minimum : ∀ i < a.minIndex, sizeAt i < a.minimum
  /-- At the smallest index the size is large enough, unless the table has no such size. -/
  minimum_le_sizeAt : a.minIndex < lastIndex → a.minimum ≤ sizeAt a.minIndex
  /-- Behind the smallest index no size is too large. -/
  sizeAt_le_maximum : ∀ i, a.minIndex < i → i ≤ a.maxIndex → sizeAt i ≤ a.maximum

theorem bounded_within {minimum initial maximum : Nat} (hmin : minimum ≤ initial)
    (hmax : initial ≤ maximum) : (within minimum initial maximum).Bounded := by
  have hle : minimum ≤ maximum := Nat.le_trans hmin hmax
  have hindex : indexFor minimum ≤ indexFor maximum := indexFor_le_indexFor hle
  have hlast : indexFor maximum ≤ lastIndex := indexFor_le_lastIndex maximum
  refine ⟨?_, ?_, ?_, hle, ?_, ?_, ?_⟩
  · simp only [within]
    omega
  · simp only [within]
    split <;> omega
  · simp only [within]
    split <;> omega
  · intro i hi
    exact sizeAt_lt_of_lt_indexFor hi
  · intro hlt
    exact le_sizeAt_indexFor_of_lt hlt
  · intro i hlt hi
    simp only [within] at hlt hi ⊢
    split at hi
    case isTrue hcut =>
      -- The entry found is too large, so the last one allowed is the entry before it.
      exact Nat.le_of_lt (sizeAt_lt_of_lt_indexFor (by omega))
    case isFalse hkeep =>
      have hfound : sizeAt (indexFor maximum) ≤ maximum := by
        apply Nat.le_of_not_lt
        intro hgt
        exact hkeep ⟨hgt, by omega⟩
      exact Nat.le_trans (sizeAt_le hi) hfound

section Capacities

variable {a : AdaptiveSizing} {i j : Nat}

theorem Bounded.minIndex_le_maxIndex (hb : a.Bounded) : a.minIndex ≤ a.maxIndex :=
  Nat.le_trans hb.minIndex_le_initialIndex hb.initialIndex_le_maxIndex

theorem capacityAt_le_capacityAt (h : i ≤ j) : a.capacityAt i ≤ a.capacityAt j := by
  have := sizeAt_le h
  simp only [capacityAt]
  omega

theorem Bounded.capacityAt_eq_sizeAt (hb : a.Bounded) (hlt : a.minIndex < i)
    (hle : i ≤ a.maxIndex) : a.capacityAt i = sizeAt i := by
  have hmax := hb.sizeAt_le_maximum i hlt hle
  have hmin := hb.minimum_le_sizeAt (by have := hb.maxIndex_le_lastIndex; omega)
  have hmono := sizeAt_lt hlt
  simp only [capacityAt]
  omega

/-- Where the indices do not begin at the end of the table, no capacity is beyond its entry. -/
theorem Bounded.capacityAt_le_sizeAt (hb : a.Bounded) (hlast : a.minIndex < lastIndex)
    (hge : a.minIndex ≤ i) : a.capacityAt i ≤ sizeAt i := by
  have hmin : a.minimum ≤ sizeAt i := Nat.le_trans (hb.minimum_le_sizeAt hlast) (sizeAt_le hge)
  simp only [capacityAt]
  omega

/-- Where there is more than one index, every capacity is an entry. -/
theorem Bounded.capacityAt_eq_sizeAt_of_lt (hb : a.Bounded) (hlt : a.minIndex < a.maxIndex)
    (hge : a.minIndex ≤ i) (hle : i ≤ a.maxIndex) : a.capacityAt i = sizeAt i := by
  rcases Nat.eq_or_lt_of_le hge with rfl | hgt
  · have hmin := hb.minimum_le_sizeAt (Nat.lt_of_lt_of_le hlt hb.maxIndex_le_lastIndex)
    have hmax := hb.sizeAt_le_maximum a.maxIndex hlt (Nat.le_refl _)
    have hmono := sizeAt_lt hlt
    simp only [capacityAt]
    omega
  · exact hb.capacityAt_eq_sizeAt hgt hle

theorem Bounded.sizeAt_pred_lt_capacityAt (hb : a.Bounded) (hpos : 0 < i) (hge : a.minIndex ≤ i)
    (hle : i ≤ a.maxIndex) : sizeAt (i - 1) < a.capacityAt i := by
  rcases Nat.eq_or_lt_of_le hge with heq | hlt
  · -- The smallest index is the first whose size is not below the minimum.
    have hsmall := hb.sizeAt_lt_minimum (i - 1) (by omega)
    simp only [capacityAt]
    omega
  · rw [hb.capacityAt_eq_sizeAt hlt hle]
    exact sizeAt_lt (by omega)

theorem Bounded.capacityAt_lt (hb : a.Bounded) (hge : a.minIndex ≤ i) (hlt : i < j)
    (hle : j ≤ a.maxIndex) : a.capacityAt i < a.capacityAt j := by
  rcases Nat.eq_or_lt_of_le hge with heq | hgt
  · -- The smallest index may have a capacity that is a bound and no entry.
    have hmin := hb.minimum_le_sizeAt (by have := hb.maxIndex_le_lastIndex; omega)
    have hmono : sizeAt a.minIndex < sizeAt j := sizeAt_lt (by omega)
    rw [hb.capacityAt_eq_sizeAt (by omega) hle, ← heq]
    simp only [capacityAt]
    omega
  · rw [hb.capacityAt_eq_sizeAt hgt (by omega), hb.capacityAt_eq_sizeAt (by omega) hle]
    exact sizeAt_lt hlt

/-- Only the first entry of the table offers 16 bytes or fewer. -/
theorem Bounded.capacityAt_le_sixteen_iff (hb : a.Bounded) (hge : a.minIndex ≤ i)
    (hle : i ≤ a.maxIndex) : a.capacityAt i ≤ 16 ↔ i = 0 := by
  constructor
  · intro hcap
    apply Nat.eq_zero_of_not_pos
    intro hpos
    have := hb.sizeAt_pred_lt_capacityAt hpos hge hle
    have := sizeAt_pos (i - 1)
    omega
  · intro hi
    subst hi
    have hzero : a.minIndex = 0 := Nat.le_zero.1 hge
    have hmin : a.minimum ≤ sizeAt a.minIndex := hb.minimum_le_sizeAt (by rw [hzero]; decide)
    have hfirst : sizeAt 0 = 16 := rfl
    rw [hzero] at hmin
    simp only [capacityAt]
    omega

theorem Bounded.advance_range (hb : a.Bounded) (hge : a.minIndex ≤ i) (hle : i ≤ a.maxIndex)
    (armed : Bool) (bytes capacity : Nat) :
    a.minIndex ≤ (a.advance i armed bytes capacity).1 ∧
      (a.advance i armed bytes capacity).1 ≤ a.maxIndex := by
  have := hb.minIndex_le_maxIndex
  unfold advance
  split
  · split
    · constructor <;> dsimp only <;> omega
    · exact ⟨hge, hle⟩
  · split
    · constructor <;> dsimp only <;> omega
    · exact ⟨hge, hle⟩

end Capacities

end AdaptiveSizing

/-- An accepted triple of bounds is in order, and its strategy has their indices. -/
theorem Strategy.ofBounds_eq_ok_iff {minimum initial maximum : Nat} {st : Strategy} :
    ofBounds minimum initial maximum = .ok st ↔
      (0 < minimum ∧ minimum ≤ initial ∧ initial ≤ maximum) ∧
        st = .adaptive (.within minimum initial maximum) := by
  unfold ofBounds
  split
  · simp only [reduceCtorEq, false_iff]
    omega
  · split
    · simp only [reduceCtorEq, false_iff]
      omega
    · split
      · simp only [reduceCtorEq, false_iff]
        omega
      · rw [Except.ok.injEq, eq_comm]
        constructor
        · intro hst
          exact ⟨by omega, hst⟩
        · exact fun h => h.2

namespace RecvHandle

/-- The handle after a series of reports, each of some bytes read into some capacity. -/
def reports (rs : List (Nat × Nat)) (h : RecvHandle) : RecvHandle :=
  rs.foldl (fun h r => h.report r.1 r.2) h

/-- The handle stands at an index that the bounds of its strategy allow. -/
def InRange (a : AdaptiveSizing) (h : RecvHandle) : Prop :=
  ∃ index armed, h.predictor = .adaptive a index armed ∧ a.minIndex ≤ index ∧ index ≤ a.maxIndex

theorem inRange_ofStrategy {a : AdaptiveSizing} (hb : a.Bounded) :
    (ofStrategy (.adaptive a)).InRange a :=
  ⟨a.initialIndex, false, rfl, hb.minIndex_le_initialIndex, hb.initialIndex_le_maxIndex⟩

theorem report_predictor {a : AdaptiveSizing} {h : RecvHandle} {index : Nat} {armed : Bool}
    (hp : h.predictor = .adaptive a index armed) (bytes capacity : Nat) :
    (h.report bytes capacity).predictor =
      .adaptive a (a.advance index armed bytes capacity).1
        (a.advance index armed bytes capacity).2 := by
  simp only [report, hp, Predictor.advance]

theorem InRange.report {a : AdaptiveSizing} (hb : a.Bounded) {h : RecvHandle} (hr : h.InRange a)
    (bytes capacity : Nat) : (h.report bytes capacity).InRange a := by
  obtain ⟨index, armed, hp, hge, hle⟩ := hr
  obtain ⟨hge', hle'⟩ := hb.advance_range hge hle armed bytes capacity
  exact ⟨_, _, report_predictor hp bytes capacity, hge', hle'⟩

theorem InRange.reports {a : AdaptiveSizing} (hb : a.Bounded) {h : RecvHandle} (hr : h.InRange a)
    (rs : List (Nat × Nat)) : (h.reports rs).InRange a := by
  induction rs generalizing h with
  | nil => exact hr
  | cons r rs ih => exact ih (hr.report hb r.1 r.2)

end RecvHandle

end FlowControl
