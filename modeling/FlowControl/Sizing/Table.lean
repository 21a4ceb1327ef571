/-!
# The table of buffer sizes

Receive buffers come in 54 sizes: steps of 16 bytes up to 496, then doublings from 512 to 2³¹.
A strategy moves along the indices of this table, so the two facts it needs are that the sizes
increase strictly and that the search finds the first size that is large enough.
-/

set_option autoImplicit false

namespace FlowControl.SizeTable

/-- How many sizes grow by steps of 16 bytes. -/
def stepCount : Nat := 31

/-- The index of the last and largest size. -/
def lastIndex : Nat := 53

/-- The size at an index: 16, 32, …, 496 and then 512, 1024, …. -/
def sizeAt (i : Nat) : Nat :=
  if i < stepCount then 16 * (i + 1) else 512 <<< (i - stepCount)

/-- The first index whose size is at least `size`, or the last index when no size is. -/
def indexFor (size : Nat) : Nat :=
  ((List.range lastIndex).find? fun i => size ≤ sizeAt i).getD lastIndex

/-! ## The sizes increase -/

theorem sizeAt_lt_succ (i : Nat) : sizeAt i < sizeAt (i + 1) := by
  unfold sizeAt stepCount
  split <;> split
  · omega
  · have : i = 30 := by omega
    subst this
    decide
  · omega
  · have hnext : i + 1 - 31 = (i - 31) + 1 := by omega
    have hpos : 512 <<< (i - 31) ≠ 0 := by
      rw [Ne, Nat.shiftLeft_eq_zero_iff]
      decide
    rw [hnext, Nat.shiftLeft_succ]
    omega

theorem sizeAt_lt {i j : Nat} (h : i < j) : sizeAt i < sizeAt j := by
  induction j with
  | zero => omega
  | succ j ih =>
    rcases Nat.lt_or_eq_of_le (Nat.le_of_lt_succ h) with h' | h'
    · exact Nat.lt_trans (ih h') (sizeAt_lt_succ j)
    · subst h'
      exact sizeAt_lt_succ i

theorem sizeAt_le {i j : Nat} (h : i ≤ j) : sizeAt i ≤ sizeAt j := by
  rcases Nat.lt_or_eq_of_le h with h' | h'
  · exact Nat.le_of_lt (sizeAt_lt h')
  · exact h' ▸ Nat.le_refl _

theorem sizeAt_pos (i : Nat) : 16 ≤ sizeAt i := sizeAt_le (Nat.zero_le i)

/-! ## The search -/

theorem indexFor_le_lastIndex (size : Nat) : indexFor size ≤ lastIndex := by
  unfold indexFor
  cases h : (List.range lastIndex).find? fun i => decide (size ≤ sizeAt i) with
  | none => exact Nat.le_refl _
  | some i =>
    have := List.mem_range.1 (List.mem_of_find?_eq_some h)
    simpa using Nat.le_of_lt this

/-- Before the index found, every size is too small. -/
theorem sizeAt_lt_of_lt_indexFor {size i : Nat} (h : i < indexFor size) : sizeAt i < size := by
  unfold indexFor at h
  cases hf : (List.range lastIndex).find? fun i => decide (size ≤ sizeAt i) with
  | none =>
    rw [hf] at h
    have := List.find?_eq_none.1 hf i (List.mem_range.2 h)
    simpa using this
  | some j =>
    rw [hf] at h
    obtain ⟨_, before, after, heq, hbefore⟩ := List.find?_eq_some_iff_append.1 hf
    have hj : j = before.length := by
      have : (List.range lastIndex)[before.length]? = some j := by rw [heq]; simp
      have hlt : before.length < lastIndex := by
        have := congrArg List.length heq
        simp at this
        omega
      rw [List.getElem?_range hlt] at this
      exact (Option.some.inj this).symm
    simp only [Option.getD_some] at h
    have hi : i ∈ before := by
      have hlen : i < before.length := hj ▸ h
      have : (List.range lastIndex)[i]? = some before[i] := by
        rw [heq, List.getElem?_append_left hlen, List.getElem?_eq_getElem hlen]
      have hlt : i < lastIndex := by
        have := congrArg List.length heq
        simp at this
        omega
      rw [List.getElem?_range hlt] at this
      rw [Option.some.inj this]
      exact List.getElem_mem hlen
    simpa using hbefore i hi

/-- A search that ends before the last index has found a size that is large enough. -/
theorem le_sizeAt_indexFor_of_lt {size : Nat} (h : indexFor size < lastIndex) :
    size ≤ sizeAt (indexFor size) := by
  unfold indexFor at h ⊢
  cases hf : (List.range lastIndex).find? fun i => decide (size ≤ sizeAt i) with
  | none =>
    rw [hf] at h
    exact absurd h (Nat.lt_irrefl _)
  | some i => simpa using List.find?_some hf

end FlowControl.SizeTable
