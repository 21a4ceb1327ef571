import Mathlib.Data.List.Basic
import Mathlib.Data.List.Induction
import FlowControl.Proofs.Sizing.Growth
import FlowControl.Proofs.Sizing.Capacity

/-!
# Shrinking under short reads

One short read should not make the buffer smaller, two in a row should. A handle remembers the first
of them in a flag, which is set, used up or cleared at every report, so what the flag means can only
be told from the whole history of the handle. Above the smallest index allowed it means that the
last report was short, that it was made at the entry where the handle still stands, and that it did
not itself move the handle down (`RecvHandle.LastShort`, `RecvHandle.exists_flag`).

At the smallest index the flag means less: there a second short report uses it up and moves nothing.
Nothing can move down from there either, so the law of shrinking needs no exception
(`RecvHandle.use_shrinks_iff`).
-/

set_option autoImplicit false

namespace FlowControl

open SizeTable

/-! ## Half of a size -/

theorem SizeTable.le_sizeAt_pred {i bytes : Nat} (h : 2 * bytes < sizeAt i) :
    bytes ≤ sizeAt (i - 1) := by
  cases i with
  | zero => exact Nat.le_trans (by omega) (Nat.le_of_lt h)
  | succ i =>
    rw [Nat.add_sub_cancel]
    -- The steps of 16 bytes end at 496, from where the next size is 512 and then twice as large.
    rcases Nat.lt_or_ge i 31 with hstep | hdouble
    · have hsize : sizeAt i = 16 * (i + 1) := if_pos hstep
      have hnext : sizeAt (i + 1) ≤ 2 * sizeAt i := by
        rcases Nat.lt_or_ge (i + 1) 31 with hlt | hge
        · have : sizeAt (i + 1) = 16 * (i + 1 + 1) := if_pos hlt
          omega
        · obtain rfl : i = 30 := by omega
          decide
      omega
    · have hsize : sizeAt i = 512 <<< (i - 31) := if_neg (Nat.not_lt.2 hdouble)
      have hnext : sizeAt (i + 1) = 512 <<< (i + 1 - 31) :=
        if_neg (Nat.not_lt.2 (Nat.le_succ_of_le hdouble))
      rw [hnext, Nat.succ_sub hdouble, Nat.shiftLeft_succ] at h
      omega

namespace AdaptiveSizing

variable {a : AdaptiveSizing} {i index bytes capacity : Nat} {armed : Bool}

/-- A read of less than half of what is offered is short, also where the offer is a bound. -/
theorem Bounded.short_of_half (hb : a.Bounded) (hlast : a.minIndex < lastIndex)
    (hge : a.minIndex ≤ i) (hhalf : 2 * bytes < a.capacityAt i) : bytes ≤ sizeAt (i - 1) := by
  apply le_sizeAt_pred
  exact Nat.lt_of_lt_of_le hhalf (hb.capacityAt_le_sizeAt hlast hge)

/-! ## One report -/

theorem advance_of_short (h : bytes ≤ sizeAt (index - 1)) :
    a.advance index armed bytes capacity
      = if armed then (max (index - 1) a.minIndex, false) else (index, true) := if_pos h

theorem le_advance_succ (hle : index ≤ a.maxIndex) :
    index ≤ (a.advance index armed bytes capacity).1 + 1 := by
  unfold advance
  split
  · split <;> dsimp only <;> omega
  · split <;> dsimp only <;> omega

theorem advance_lt_iff (hge : a.minIndex ≤ index) (hle : index ≤ a.maxIndex) :
    (a.advance index armed bytes capacity).1 < index
      ↔ a.minIndex < index ∧ armed = true ∧ bytes ≤ sizeAt (index - 1) := by
  unfold advance
  split
  case isTrue hshort =>
    cases armed with
    | false => simp
    | true =>
      simp only [if_true, hshort, and_true]
      omega
  case isFalse hlong =>
    simp only [hlong, and_false, iff_false]
    split <;> dsimp only <;> omega

/-- A report leaves the flag set above the smallest index exactly if it is short and the handle
stays where it is. A short report that finds the flag set moves the handle. -/
theorem advance_armed_iff (hmoved : a.minIndex < (a.advance index armed bytes capacity).1) :
    (a.advance index armed bytes capacity).2 = true
      ↔ bytes ≤ sizeAt (index - 1) ∧ (a.advance index armed bytes capacity).1 = index := by
  rcases Nat.lt_or_ge (sizeAt (index - 1)) bytes with hlong | hshort
  · have hflag : (a.advance index armed bytes capacity).2 = false := by
      unfold advance
      rw [if_neg (Nat.not_le.2 hlong)]
      split <;> rfl
    simp [hflag, Nat.not_le.2 hlong]
  · rw [advance_of_short hshort] at hmoved ⊢
    cases armed with
    | false => simp [hshort]
    | true =>
      simp only [if_true] at hmoved ⊢
      simp only [reduceCtorEq, false_iff, not_and]
      omega

end AdaptiveSizing

namespace RecvHandle

/-! ## What the flag remembers -/

/-- The index of the table at which a handle stands. A fixed handle stands at none. -/
def index (h : RecvHandle) : Nat :=
  match h.predictor with
  | .adaptive _ index _ => index
  | .fixed _ => 0

/-- A report is short at a handle if it is of at most the bytes of the entry before. -/
def Short (h : RecvHandle) (bytes : Nat) : Prop := bytes ≤ sizeAt (h.index - 1)

/-- Uses between two reports: the start of a pass, or a change of the read limit. -/
def Use.Quiet (u : Use) : Prop := ∀ bytes capacity, u ≠ .report bytes capacity

/-- The last report to a handle of the strategy was short, did not move the handle down, and was
made at the index where the handle still stands. -/
def LastShort (st : Strategy) (us : List Use) : Prop :=
  ∃ before bytes capacity quiet,
    us = before ++ .report bytes capacity :: quiet ∧ (∀ u ∈ quiet, u.Quiet) ∧
      let h := (ofStrategy st).useAll before
      h.Short bytes ∧ ¬ (h.report bytes capacity).index < h.index
        ∧ h.index = ((ofStrategy st).useAll us).index

section Histories

variable {a : AdaptiveSizing} {st : Strategy} {h : RecvHandle} {u : Use} {us : List Use}
  {index bytes capacity : Nat} {armed : Bool}

theorem index_eq (hp : h.predictor = .adaptive a index armed) : h.index = index := by
  rw [RecvHandle.index, hp]

theorem report_index (hp : h.predictor = .adaptive a index armed) (bytes capacity : Nat) :
    (h.report bytes capacity).index = (a.advance index armed bytes capacity).1 :=
  index_eq (report_predictor hp bytes capacity)

theorem useAll_concat (us : List Use) (u : Use) (h : RecvHandle) :
    h.useAll (us ++ [u]) = (h.useAll us).use u := by
  rw [useAll, List.foldl_concat]
  rfl

theorem use_predictor_of_quiet (hu : u.Quiet) (h : RecvHandle) :
    (h.use u).predictor = h.predictor := by
  cases u with
  | report bytes capacity => exact absurd rfl (hu bytes capacity)
  | reset => rfl
  | limit => rfl

theorem use_index_of_quiet (hu : u.Quiet) (h : RecvHandle) : (h.use u).index = h.index := by
  rw [RecvHandle.index, use_predictor_of_quiet hu, RecvHandle.index]

theorem useAll_predictor_of_quiet (hus : ∀ u ∈ us, u.Quiet) (h : RecvHandle) :
    (h.useAll us).predictor = h.predictor := by
  induction us generalizing h with
  | nil => rfl
  | cons u rest ih =>
    obtain ⟨hu, hrest⟩ := List.forall_mem_cons.1 hus
    exact (ih hrest (h.use u)).trans (use_predictor_of_quiet hu h)

/-- The last report of a history is the last use, or it is the last report of what came before. -/
theorem concat_eq_report_cons {before quiet : List Use}
    (hus : us ++ [u] = before ++ .report bytes capacity :: quiet) :
    (us = before ∧ u = .report bytes capacity ∧ quiet = [])
      ∨ ∃ rest, us = before ++ .report bytes capacity :: rest ∧ quiet = rest ++ [u] := by
  obtain rfl | ⟨rest, v, rfl⟩ := List.eq_nil_or_concat' quiet
  · obtain ⟨hbefore, hlast⟩ := List.append_inj' hus rfl
    exact .inl ⟨hbefore, List.cons.inj hlast |>.1, rfl⟩
  · rw [← List.cons_append, ← List.append_assoc] at hus
    obtain ⟨hbefore, hlast⟩ := List.append_inj' hus rfl
    exact .inr ⟨rest, hbefore, by rw [hlast]⟩

theorem lastShort_concat_report (st : Strategy) (us : List Use) (bytes capacity : Nat) :
    LastShort st (us ++ [.report bytes capacity])
      ↔ ((ofStrategy st).useAll us).Short bytes
        ∧ (((ofStrategy st).useAll us).report bytes capacity).index
          = ((ofStrategy st).useAll us).index := by
  have hafter : (ofStrategy st).useAll (us ++ [.report bytes capacity])
      = ((ofStrategy st).useAll us).report bytes capacity := useAll_concat us _ _
  constructor
  · rintro ⟨before, bytes', capacity', quiet, hus, hquiet, hshort, -, hindex⟩
    rcases concat_eq_report_cons hus with ⟨rfl, hlast, rfl⟩ | ⟨rest, -, rfl⟩
    · cases hlast
      exact ⟨hshort, by rw [← hafter]; exact hindex.symm⟩
    · exact absurd rfl (hquiet _ (by simp) bytes capacity)
  · rintro ⟨hshort, hindex⟩
    refine ⟨us, bytes, capacity, [], rfl, by simp, hshort, ?_, ?_⟩
    · exact Nat.not_lt.2 (Nat.le_of_eq hindex.symm)
    · rw [hafter]
      exact hindex.symm

theorem lastShort_concat_quiet (hu : u.Quiet) : LastShort st (us ++ [u]) ↔ LastShort st us := by
  have hafter : ((ofStrategy st).useAll (us ++ [u])).index = ((ofStrategy st).useAll us).index := by
    rw [useAll_concat, use_index_of_quiet hu]
  constructor
  · rintro ⟨before, bytes, capacity, quiet, hus, hquiet, hshort, hkept, hindex⟩
    rcases concat_eq_report_cons hus with ⟨-, rfl, -⟩ | ⟨rest, rfl, rfl⟩
    · exact absurd rfl (hu bytes capacity)
    · refine ⟨before, bytes, capacity, rest, rfl, ?_, hshort, hkept, hindex.trans hafter⟩
      exact fun w hw => hquiet w (List.mem_append_left _ hw)
  · rintro ⟨before, bytes, capacity, quiet, rfl, hquiet, hshort, hkept, hindex⟩
    refine ⟨before, bytes, capacity, quiet ++ [u], by simp, ?_, hshort, hkept,
      hindex.trans hafter.symm⟩
    exact List.forall_mem_append.2 ⟨hquiet, List.forall_mem_singleton.2 hu⟩

theorem not_lastShort_nil (st : Strategy) : ¬ LastShort st [] := by
  rintro ⟨before, bytes, capacity, quiet, hus, -⟩
  simp at hus

/-- After any uses the handle stands at an index that the bounds allow, and its flag, where the
handle can move down at all, says whether the last report was short. -/
theorem exists_flag (hb : a.Bounded) (us : List Use) :
    ∃ index armed, ((ofStrategy (.adaptive a)).useAll us).predictor = .adaptive a index armed
      ∧ a.minIndex ≤ index ∧ index ≤ a.maxIndex
      ∧ (a.minIndex < index → (armed = true ↔ LastShort (.adaptive a) us)) := by
  induction us using List.reverseRecOn with
  | nil =>
    refine ⟨_, _, rfl, hb.minIndex_le_initialIndex, hb.initialIndex_le_maxIndex, fun _ => ?_⟩
    simp [not_lastShort_nil]
  | append_singleton us u ih =>
    obtain ⟨index, armed, hp, hge, hle, hflag⟩ := ih
    cases u with
    | report bytes capacity =>
      obtain ⟨hge', hle'⟩ := hb.advance_range hge hle armed bytes capacity
      rw [useAll_concat]
      refine ⟨_, _, report_predictor hp bytes capacity, hge', hle', fun hlt => ?_⟩
      rw [AdaptiveSizing.advance_armed_iff hlt, lastShort_concat_report, Short, report_index hp,
        index_eq hp]
    | reset =>
      have hquiet : Use.reset.Quiet := fun _ _ => Use.noConfusion
      rw [useAll_concat, use_predictor_of_quiet hquiet]
      exact ⟨index, armed, hp, hge, hle, by rwa [lastShort_concat_quiet hquiet]⟩
    | limit n =>
      have hquiet : (Use.limit n).Quiet := fun _ _ => Use.noConfusion
      rw [useAll_concat, use_predictor_of_quiet hquiet]
      exact ⟨index, armed, hp, hge, hle, by rwa [lastShort_concat_quiet hquiet]⟩

/-! ## Two short reads in a row -/

/-- Two reads of less than half of what is offered move a handle down one entry, whether the flag
was set before them or not. -/
theorem report_report_index (hb : a.Bounded) (hp : h.predictor = .adaptive a index armed)
    (hlt : a.minIndex < index) (hle : index ≤ a.maxIndex) {bytes₁ capacity₁ bytes₂ : Nat}
    (capacity₂ : Nat) {quiet : List Use} (hquiet : ∀ u ∈ quiet, u.Quiet)
    (hfirst : 2 * bytes₁ < h.nextCapacity)
    (hsecond : 2 * bytes₂ < ((h.report bytes₁ capacity₁).useAll quiet).nextCapacity) :
    ∃ armed', (((h.report bytes₁ capacity₁).useAll quiet).report bytes₂ capacity₂).predictor
      = .adaptive a (index - 1) armed' := by
  have hlast : a.minIndex < lastIndex :=
    Nat.lt_of_lt_of_le hlt (Nat.le_trans hle hb.maxIndex_le_lastIndex)
  have hshort : bytes₁ ≤ sizeAt (index - 1) := by
    rw [nextCapacity_eq hp] at hfirst
    exact hb.short_of_half hlast (Nat.le_of_lt hlt) hfirst
  have honce := (useAll_predictor_of_quiet hquiet _).trans (report_predictor hp bytes₁ capacity₁)
  rw [AdaptiveSizing.advance_of_short hshort] at honce
  rw [nextCapacity_eq honce] at hsecond
  have htwice := report_predictor honce bytes₂ capacity₂
  have hmax : max (index - 1) a.minIndex = index - 1 := by omega
  cases armed with
  | false =>
    simp only [Bool.false_eq_true, if_false] at hsecond htwice
    have hagain := hb.short_of_half hlast (Nat.le_of_lt hlt) hsecond
    rw [AdaptiveSizing.advance_of_short hagain] at htwice
    exact ⟨false, by simpa [hmax] using htwice⟩
  | true =>
    -- The first of the two has already moved the handle; the second sets the flag again.
    simp only [if_true, hmax] at hsecond htwice
    have hagain := hb.short_of_half hlast (by omega) hsecond
    rw [AdaptiveSizing.advance_of_short hagain] at htwice
    exact ⟨true, by simpa using htwice⟩

end Histories

/-- An adaptive handle moves down one entry at a time, and does so exactly at a short report after a
short report, made at the same index, that did not move it down. Two reports in a row of less than
half of what was offered for them always leave it with a smaller capacity, unless what it offered
before them was the least that a handle of the strategy ever offers. -/
theorem use_shrinks_iff {minimum initial maximum : Nat} {st : Strategy}
    (hst : Strategy.ofBounds minimum initial maximum = .ok st) (us : List Use) :
    let a := AdaptiveSizing.within minimum initial maximum
    let h := (ofStrategy st).useAll us
    (∀ u, h.index ≤ (h.use u).index + 1
        ∧ ((h.use u).index < h.index
          ↔ ∃ bytes capacity, u = .report bytes capacity
            ∧ a.minIndex < h.index ∧ h.Short bytes ∧ LastShort st us))
      ∧ ∀ bytes₁ capacity₁ quiet bytes₂ capacity₂, (∀ u ∈ quiet, u.Quiet) →
          let once := (h.report bytes₁ capacity₁).useAll quiet
          2 * bytes₁ < h.nextCapacity → 2 * bytes₂ < once.nextCapacity →
            (once.report bytes₂ capacity₂).nextCapacity < h.nextCapacity
              ∨ IsLeast {c | ∃ vs, ((ofStrategy st).useAll vs).nextCapacity = c}
                  h.nextCapacity := by
  obtain ⟨⟨-, hmin, hmax⟩, rfl⟩ := Strategy.ofBounds_eq_ok_iff.1 hst
  intro a h
  have hb : a.Bounded := AdaptiveSizing.bounded_within hmin hmax
  obtain ⟨index, armed, hp, hge, hle, hflag⟩ := exists_flag hb us
  refine ⟨fun u => ?_, ?_⟩
  · rcases Classical.em u.Quiet with hquiet | hreport
    · have hsame : (h.use u).index = h.index := use_index_of_quiet hquiet h
      refine ⟨by omega, ?_⟩
      constructor
      · intro hlt
        omega
      · rintro ⟨bytes, capacity, rfl, -⟩
        exact absurd rfl (hquiet bytes capacity)
    · simp only [Use.Quiet, not_forall, not_not] at hreport
      obtain ⟨bytes, capacity, rfl⟩ := hreport
      have hnext : (h.use (.report bytes capacity)).index
          = (a.advance index armed bytes capacity).1 := report_index hp bytes capacity
      rw [hnext, index_eq hp, AdaptiveSizing.advance_lt_iff hge hle]
      refine ⟨AdaptiveSizing.le_advance_succ hle, ?_⟩
      constructor
      · rintro ⟨hlt, harmed, hshort⟩
        refine ⟨bytes, capacity, rfl, hlt, ?_, (hflag hlt).1 harmed⟩
        rwa [Short, index_eq hp]
      · rintro ⟨_, _, heq, hlt, hshort, hlast⟩
        cases heq
        rw [Short, index_eq hp] at hshort
        exact ⟨hlt, (hflag hlt).2 hlast, hshort⟩
  · intro bytes₁ capacity₁ quiet bytes₂ capacity₂ hquiet once hfirst hsecond
    rcases Nat.eq_or_lt_of_le hge with heq | hlt
    · refine .inr ⟨⟨us, rfl⟩, ?_⟩
      rintro _ ⟨vs, rfl⟩
      obtain ⟨index', armed', hp', hge', -⟩ := exists_flag hb vs
      rw [nextCapacity_eq hp, nextCapacity_eq hp', ← heq]
      exact AdaptiveSizing.capacityAt_le_capacityAt hge'
    · obtain ⟨armed', htwice⟩ := report_report_index hb hp hlt hle capacity₂ hquiet hfirst hsecond
      left
      rw [nextCapacity_eq htwice, nextCapacity_eq hp]
      exact hb.capacityAt_lt (by omega) (by omega) hle

/-- Under the standard bounds the second read of 100 bytes moves the handle down, because the first
one left it where it is and only the start of a pass came between them. Two reads of less than half
of the buffer then make it smaller again. -/
theorem use_shrinks_standard :
    let us : List Use := [.report 100 2048, .reset]
    let h := (ofStrategy .standard).useAll us
    Strategy.ofBounds 64 2048 65536 = .ok .standard
      ∧ (h.use (.report 100 2048)).index < h.index ∧ LastShort .standard us
      ∧ (((h.report 1000 0).useAll [.limit 3]).report 500 4000).nextCapacity < h.nextCapacity := by
  intro us h
  have hst : Strategy.ofBounds 64 2048 65536 = .ok .standard := rfl
  have hless : (h.use (.report 100 2048)).index < h.index := by decide
  obtain ⟨hsteps, htwo⟩ := use_shrinks_iff hst us
  obtain ⟨_, _, _, _, _, hlast⟩ := ((hsteps (.report 100 2048)).2).1 hless
  refine ⟨hst, hless, hlast, ?_⟩
  have hquiet : ∀ u ∈ [Use.limit 3], u.Quiet :=
    List.forall_mem_singleton.2 fun _ _ => Use.noConfusion
  rcases htwo 1000 0 [.limit 3] 500 4000 hquiet (by decide) (by decide) with hlt | ⟨-, hleast⟩
  · exact hlt
  · -- One more empty read makes a handle offer less than that.
    exact absurd (hleast ⟨us ++ [.report 0 0], rfl⟩) (by decide)

end RecvHandle

end FlowControl
