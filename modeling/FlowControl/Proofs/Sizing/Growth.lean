import Mathlib.Logic.Function.Iterate
import FlowControl.Proofs.Sizing.Bounds

/-!
# Growth under filling reads

A read that fills the offered buffer should make the next one larger. `RecvHandle.Grows` says so of
a handle: the index moves up four entries, the capacity rises while it can, and 14 filling reads are
enough for the largest one.

Every handle that offers more than 16 bytes grows. One that offers 16 or fewer stands at the first
entry of the table, which has no entry before it: the threshold of a short read is then that entry
itself, a filling read counts as short, and the capacity never rises again. So the minimum decides
whether all handles of a strategy grow (`RecvHandle.reports_grow_iff`).
-/

set_option autoImplicit false

namespace FlowControl

open SizeTable

/-- The largest capacity that a handle of the strategy can offer. -/
def Strategy.largest : Strategy → Nat
  | .adaptive a => a.capacityAt a.maxIndex
  | .fixed c => c

namespace RecvHandle

/-- The handle after a read that exactly fills the offered buffer. -/
def fill (h : RecvHandle) : RecvHandle := h.report h.nextCapacity h.nextCapacity

/-- What filling reads do to a handle that grows. -/
structure Grows (h : RecvHandle) : Prop where
  /-- Four entries up, to the last one allowed at most, and no decrease is pending. -/
  advances : ∃ a index armed, h.predictor = .adaptive a index armed ∧
    h.fill.predictor = .adaptive a (min (index + 4) a.maxIndex) false
  raises : h.nextCapacity < h.strategy.largest → h.nextCapacity < h.fill.nextCapacity
  /-- The largest capacity is reached by 14 reads, and kept. -/
  reaches : ∀ k, 14 ≤ k → (fill^[k] h).nextCapacity = h.strategy.largest

section Filling

variable {a : AdaptiveSizing} {h : RecvHandle} {index : Nat} {armed : Bool}

theorem nextCapacity_eq (hp : h.predictor = .adaptive a index armed) :
    h.nextCapacity = a.capacityAt index := by
  rw [nextCapacity, hp, Predictor.capacity]

theorem strategy_eq (hp : h.predictor = .adaptive a index armed) : h.strategy = .adaptive a := by
  rw [strategy, hp, Predictor.strategy]

/-! ## Behind the first entry -/

theorem fill_predictor_of_pos (hb : a.Bounded) (hp : h.predictor = .adaptive a index armed)
    (hpos : 0 < index) (hge : a.minIndex ≤ index) (hle : index ≤ a.maxIndex) :
    h.fill.predictor = .adaptive a (min (index + 4) a.maxIndex) false := by
  have hlong : sizeAt (index - 1) < a.capacityAt index :=
    hb.sizeAt_pred_lt_capacityAt hpos hge hle
  have hadvance : a.advance index armed (a.capacityAt index) (a.capacityAt index) =
      (min (index + 4) a.maxIndex, false) := by
    unfold AdaptiveSizing.advance
    rw [if_neg (Nat.not_le.2 hlong), if_pos ⟨Nat.zero_lt_of_lt hlong, Nat.le_refl _⟩]
    rfl
  rw [fill, nextCapacity_eq hp, report_predictor hp, hadvance]

theorem iterate_fill_predictor (hb : a.Bounded) (hp : h.predictor = .adaptive a index armed)
    (hpos : 0 < index) (hge : a.minIndex ≤ index) (hle : index ≤ a.maxIndex) (n : Nat) :
    ∃ armed', (fill^[n] h).predictor = .adaptive a (min (index + 4 * n) a.maxIndex) armed' := by
  induction n with
  | zero =>
    refine ⟨armed, ?_⟩
    rw [Function.iterate_zero_apply, hp, Nat.mul_zero, Nat.add_zero, Nat.min_eq_left hle]
  | succ n ih =>
    obtain ⟨armed', hn⟩ := ih
    refine ⟨false, ?_⟩
    have hsum : min (min (index + 4 * n) a.maxIndex + 4) a.maxIndex =
        min (index + 4 * (n + 1)) a.maxIndex := by omega
    rw [Function.iterate_succ_apply',
      fill_predictor_of_pos hb hn (by omega) (by omega) (by omega), hsum]

theorem grows_of_pos (hb : a.Bounded) (hp : h.predictor = .adaptive a index armed)
    (hpos : 0 < index) (hge : a.minIndex ≤ index) (hle : index ≤ a.maxIndex) : h.Grows where
  advances := ⟨a, index, armed, hp, fill_predictor_of_pos hb hp hpos hge hle⟩
  raises hlow := by
    have hfill := fill_predictor_of_pos hb hp hpos hge hle
    rw [strategy_eq hp, nextCapacity_eq hp, Strategy.largest] at hlow
    rw [nextCapacity_eq hp, nextCapacity_eq hfill]
    have hne : index ≠ a.maxIndex := by
      intro heq
      rw [heq] at hlow
      exact Nat.lt_irrefl _ hlow
    exact hb.capacityAt_lt hge (by omega) (by omega)
  reaches k hk := by
    obtain ⟨armed', hn⟩ := iterate_fill_predictor hb hp hpos hge hle k
    have hlast : a.maxIndex ≤ 53 := hb.maxIndex_le_lastIndex
    rw [nextCapacity_eq hn, strategy_eq hp, Strategy.largest,
      Nat.min_eq_right (by omega : a.maxIndex ≤ index + 4 * k)]

/-! ## At the first entry -/

theorem fill_predictor_of_zero (hb : a.Bounded) (hp : h.predictor = .adaptive a 0 armed)
    (hge : a.minIndex ≤ 0) : h.fill.predictor = .adaptive a 0 (!armed) := by
  have hshort : a.capacityAt 0 ≤ sizeAt (0 - 1) :=
    (hb.capacityAt_le_sixteen_iff hge (Nat.zero_le _)).2 rfl
  have hmin : a.minIndex = 0 := Nat.le_zero.1 hge
  rw [fill, nextCapacity_eq hp, report_predictor hp]
  unfold AdaptiveSizing.advance
  rw [if_pos hshort]
  cases armed with
  | false => rfl
  | true => simp [hmin]

theorem iterate_fill_predictor_of_zero (hb : a.Bounded) (hp : h.predictor = .adaptive a 0 armed)
    (hge : a.minIndex ≤ 0) (n : Nat) :
    ∃ armed', (fill^[n] h).predictor = .adaptive a 0 armed' := by
  induction n with
  | zero => exact ⟨armed, hp⟩
  | succ n ih =>
    obtain ⟨armed', hn⟩ := ih
    refine ⟨!armed', ?_⟩
    rw [Function.iterate_succ_apply', fill_predictor_of_zero hb hn hge]

theorem not_grows_of_zero (hb : a.Bounded) (hp : h.predictor = .adaptive a 0 false)
    (hge : a.minIndex ≤ 0) : ¬ h.Grows := by
  intro hg
  obtain ⟨_, _, _, _, hadvance⟩ := hg.advances
  rw [fill_predictor_of_zero hb hp hge] at hadvance
  -- The filling read has armed the decrease instead of clearing it.
  simp at hadvance

theorem exists_reports_zero (hmin : a.minIndex = 0) (hp : h.predictor = .adaptive a index false) :
    ∃ rs, (h.reports rs).predictor = .adaptive a 0 false := by
  induction index generalizing h with
  | zero => exact ⟨[], hp⟩
  | succ index ih =>
    -- Two empty reads step down one entry.
    have hdown : ((h.report 0 0).report 0 0).predictor = .adaptive a index false := by
      have harmed : (h.report 0 0).predictor = .adaptive a (index + 1) true := by
        simp [report_predictor hp, AdaptiveSizing.advance]
      simp [report_predictor harmed, AdaptiveSizing.advance, hmin]
    obtain ⟨rs, hrs⟩ := ih hdown
    exact ⟨(0, 0) :: (0, 0) :: rs, hrs⟩

end Filling

/-! ## Growth decided by the minimum -/

section Reachable

variable {minimum initial maximum : Nat} {st : Strategy}

theorem reports_inRange (hst : Strategy.ofBounds minimum initial maximum = .ok st)
    (rs : List (Nat × Nat)) :
    ((ofStrategy st).reports rs).InRange (.within minimum initial maximum) := by
  obtain ⟨⟨_, hmin, hmax⟩, rfl⟩ := Strategy.ofBounds_eq_ok_iff.1 hst
  have hb := AdaptiveSizing.bounded_within hmin hmax
  exact (inRange_ofStrategy hb).reports hb rs

theorem InRange.grows {a : AdaptiveSizing} (hb : a.Bounded) {h : RecvHandle} (hr : h.InRange a)
    (hcap : 16 < h.nextCapacity) : h.Grows := by
  obtain ⟨index, armed, hp, hge, hle⟩ := hr
  rw [nextCapacity_eq hp] at hcap
  have hne : index ≠ 0 := by
    intro hzero
    exact Nat.not_le.2 hcap ((hb.capacityAt_le_sixteen_iff hge hle).2 hzero)
  exact grows_of_pos hb hp (Nat.pos_of_ne_zero hne) hge hle

theorem InRange.iterate_fill_nextCapacity {a : AdaptiveSizing} (hb : a.Bounded) {h : RecvHandle}
    (hr : h.InRange a) (hcap : h.nextCapacity ≤ 16) (k : Nat) :
    (fill^[k] h).nextCapacity = h.nextCapacity := by
  obtain ⟨index, armed, hp, hge, hle⟩ := hr
  rw [nextCapacity_eq hp, hb.capacityAt_le_sixteen_iff hge hle] at hcap
  subst hcap
  obtain ⟨armed', hn⟩ := iterate_fill_predictor_of_zero hb hp hge k
  rw [nextCapacity_eq hn, nextCapacity_eq hp]

/-- A minimum of 16 bytes or less makes the first entry reachable, and nothing grows there. -/
theorem exists_reports_not_grows (hst : Strategy.ofBounds minimum initial maximum = .ok st)
    (hsmall : minimum ≤ 16) : ∃ rs, ¬ ((ofStrategy st).reports rs).Grows := by
  obtain ⟨⟨_, hlow, hhigh⟩, rfl⟩ := Strategy.ofBounds_eq_ok_iff.1 hst
  have hb := AdaptiveSizing.bounded_within hlow hhigh
  have hmin : (AdaptiveSizing.within minimum initial maximum).minIndex = 0 := by
    apply Nat.eq_zero_of_not_pos
    intro hpos
    exact absurd (sizeAt_lt_of_lt_indexFor hpos) (Nat.not_lt.2 hsmall)
  obtain ⟨rs, hrs⟩ := exists_reports_zero hmin
    (h := ofStrategy (.adaptive (.within minimum initial maximum))) rfl
  exact ⟨rs, not_grows_of_zero hb hrs (Nat.le_of_eq hmin)⟩

/-- Reads that fill the buffer make every handle of a strategy grow exactly if its minimum is above
16 bytes. Whatever the minimum, a handle that offers more than 16 bytes grows, and one that does not
keeps what it offers, however many filling reads follow. -/
theorem reports_grow_iff (hst : Strategy.ofBounds minimum initial maximum = .ok st) :
    ((∀ rs, ((ofStrategy st).reports rs).Grows) ↔ 16 < minimum) ∧
      ∀ rs, let h := (ofStrategy st).reports rs
        h.nextCapacity ≤ st.largest ∧ (16 < h.nextCapacity → h.Grows) ∧
          (h.nextCapacity ≤ 16 → ∀ k, (fill^[k] h).nextCapacity = h.nextCapacity) := by
  have hrange := reports_inRange hst
  have hsmall := exists_reports_not_grows hst
  obtain ⟨⟨_, hlow, hhigh⟩, rfl⟩ := Strategy.ofBounds_eq_ok_iff.1 hst
  have hb := AdaptiveSizing.bounded_within hlow hhigh
  refine ⟨⟨?_, ?_⟩, ?_⟩
  · intro hall
    apply Nat.lt_of_not_le
    intro hle
    obtain ⟨rs, hrs⟩ := hsmall hle
    exact hrs (hall rs)
  · intro hlarge rs
    apply (hrange rs).grows hb
    obtain ⟨index, armed, hp, _⟩ := hrange rs
    rw [nextCapacity_eq hp]
    exact Nat.lt_of_lt_of_le hlarge (Nat.le_max_left _ _)
  · intro rs h
    refine ⟨?_, (hrange rs).grows hb, (hrange rs).iterate_fill_nextCapacity hb⟩
    obtain ⟨index, armed, hp, _, hle⟩ := hrange rs
    rw [nextCapacity_eq hp]
    exact AdaptiveSizing.capacityAt_le_capacityAt hle

end Reachable

/-- The standard bounds grow from every state. -/
theorem reports_grow_standard :
    Strategy.ofBounds 64 2048 65536 = .ok .standard ∧
      ∀ rs, ((ofStrategy .standard).reports rs).Grows := by
  have hst : Strategy.ofBounds 64 2048 65536 = .ok .standard := rfl
  exact ⟨hst, (reports_grow_iff hst).1.2 (by decide)⟩

/-- The bounds 16 and 1024 are accepted, but a handle that starts at 16 bytes stays there: a first
filling read leaves a decrease pending instead of clearing one, and no series of them is enough. -/
theorem not_grows_sixteen :
    ∃ st, Strategy.ofBounds 16 16 1024 = .ok st ∧ st.largest = 1024 ∧
      (ofStrategy st).fill.predictor = .adaptive (.within 16 16 1024) 0 true ∧
      (∀ k, (fill^[k] (ofStrategy st)).nextCapacity = 16) ∧ ¬ (ofStrategy st).Grows := by
  have hb : (AdaptiveSizing.within 16 16 1024).Bounded :=
    AdaptiveSizing.bounded_within (by decide) (by decide)
  refine ⟨.adaptive (.within 16 16 1024), rfl, rfl, rfl, ?_, ?_⟩
  · intro k
    obtain ⟨armed, hn⟩ := iterate_fill_predictor_of_zero hb
      (h := ofStrategy (.adaptive (.within 16 16 1024))) rfl (by decide) k
    exact nextCapacity_eq hn
  · exact not_grows_of_zero hb rfl (by decide)

end RecvHandle

end FlowControl
