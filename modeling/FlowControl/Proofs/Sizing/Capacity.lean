import Mathlib.Data.Nat.Bitwise
import Mathlib.Order.Bounds.Defs
import FlowControl.Proofs.Sizing.Bounds

/-!
# The capacities between two bounds

What an adaptive handle offers should be a size of the table. Its indices come from a search that
stops at the end of the table, and the capacity is brought back to the bounds afterwards, so this is
not clear where the bounds are close together or large. It holds as soon as some size lies between
the bounds: then every index allowed has such a size, and bringing it back changes nothing
(`Bounded.capacityAt_mem`). If none does, all indices allowed lie on one side of the bounds, and the
handle offers one bound for ever.

A handle keeps its index and the pending decrease in one word. Whatever is done with the handle, the
word holds the index and the flag, and the index stays allowed (`RecvHandle.Keeps`).
-/

set_option autoImplicit false

namespace FlowControl

open SizeTable

/-! ## The state word -/

namespace StateWord

theorem toNat_pack {index : Nat} (h : index < 2 ^ 32) (armed : Bool) :
    (pack index armed).toNat = armed.toNat * 2 ^ 32 + index := by
  have hword : index % 2 ^ 64 = index := Nat.mod_eq_of_lt (by omega)
  cases armed with
  | false => rw [pack, if_neg Bool.false_ne_true, UInt64.or_zero, UInt64.toNat_ofNat', hword]; simp
  | true =>
    have hor : 2 ^ 32 * 1 + index = 2 ^ 32 * 1 ||| index := Nat.two_pow_add_eq_or_of_lt h 1
    have hbit : armedBit.toNat = 2 ^ 32 := rfl
    rw [pack, if_pos rfl, UInt64.toNat_or, UInt64.toNat_ofNat', hword, hbit, Nat.or_comm]
    simpa using hor.symm

/-- The index and the flag do not get in each other's way. -/
theorem unpack_pack {index : Nat} (h : index < 2 ^ 32) (armed : Bool) :
    unpack (pack index armed) = (index, armed) := by
  have hnat := toNat_pack h armed
  have hlow : (pack index armed &&& 0xFFFFFFFF).toNat = index := by
    have hmask : (0xFFFFFFFF : UInt64).toNat = 2 ^ 32 - 1 := rfl
    rw [UInt64.toNat_and, hmask, Nat.and_two_pow_sub_one_eq_mod, hnat]
    cases armed <;> simp <;> omega
  have hbit : (pack index armed &&& armedBit).toNat = armed.toNat * 2 ^ 32 := by
    have hmask : armedBit.toNat = 2 ^ 32 := rfl
    have htest : (armed.toNat * 2 ^ 32 + index).testBit 32 = armed := by
      rw [Nat.testBit_eq_decide_div_mod_eq]
      cases armed <;> simp <;> omega
    rw [UInt64.toNat_and, hmask, hnat, Nat.and_two_pow, htest]
  have hflag : (pack index armed &&& armedBit != 0) = armed := by
    cases armed with
    | false =>
      have hzero : pack index false &&& armedBit = 0 := UInt64.toNat_inj.1 (by simpa using hbit)
      simp [hzero]
    | true =>
      have hne : pack index true &&& armedBit ≠ 0 := by
        intro hzero
        rw [hzero] at hbit
        cases hbit
      simpa using hne
  rw [unpack, hlow, hflag]

end StateWord

/-! ## Sizes between the bounds -/

namespace SizeTable

/-- The sizes of the table, which increase. -/
def sizes : List Nat := (List.range (lastIndex + 1)).map sizeAt

/-- The sizes of the table that lie between two bounds. -/
def sizesWithin (minimum maximum : Nat) : List Nat :=
  sizes.filter fun size => minimum ≤ size ∧ size ≤ maximum

theorem mem_sizesWithin {minimum maximum size : Nat} :
    size ∈ sizesWithin minimum maximum
      ↔ ∃ i ≤ lastIndex, sizeAt i = size ∧ minimum ≤ size ∧ size ≤ maximum := by
  simp only [sizesWithin, sizes, List.mem_filter, List.mem_map, List.mem_range, Nat.lt_succ_iff,
    decide_eq_true_eq]
  constructor
  · rintro ⟨⟨i, hi, hsize⟩, hbounds⟩
    exact ⟨i, hi, hsize, hbounds⟩
  · rintro ⟨i, hi, hsize, hbounds⟩
    exact ⟨⟨i, hi, hsize⟩, hbounds⟩

end SizeTable

namespace AdaptiveSizing

variable {a : AdaptiveSizing} {i index : Nat}

/-- Where there is a size between the bounds, the smallest index has a size that is large enough,
also at the end of the table. -/
theorem Bounded.minimum_le_of_entry (hb : a.Bounded) (hi : i ≤ lastIndex)
    (hmin : a.minimum ≤ sizeAt i) : a.minIndex ≤ i ∧ a.minimum ≤ sizeAt a.minIndex := by
  have hle : a.minIndex ≤ i := by
    apply Nat.le_of_not_lt
    intro hlt
    exact Nat.not_lt.2 hmin (hb.sizeAt_lt_minimum i hlt)
  refine ⟨hle, ?_⟩
  rcases Nat.lt_or_ge a.minIndex lastIndex with hlt | hge
  · exact hb.minimum_le_sizeAt hlt
  · have : a.minIndex = i := by omega
    rw [this]
    exact hmin

/-- Where there is a size between the bounds, every index allowed has one. -/
theorem Bounded.capacityAt_mem (hb : a.Bounded) (hentry : sizesWithin a.minimum a.maximum ≠ [])
    (hge : a.minIndex ≤ index) (hle : index ≤ a.maxIndex) :
    a.capacityAt index = sizeAt index ∧ sizeAt index ∈ sizesWithin a.minimum a.maximum := by
  obtain ⟨size, hsize⟩ := List.exists_mem_of_ne_nil _ hentry
  obtain ⟨i, hi, rfl, hmin, hmax⟩ := mem_sizesWithin.1 hsize
  obtain ⟨hfirst, hlarge⟩ := hb.minimum_le_of_entry hi hmin
  have hlow : a.minimum ≤ sizeAt index := Nat.le_trans hlarge (sizeAt_le hge)
  have hhigh : sizeAt index ≤ a.maximum := by
    rcases Nat.eq_or_lt_of_le hge with heq | hlt
    · rw [← heq]
      exact Nat.le_trans (sizeAt_le hfirst) hmax
    · exact hb.sizeAt_le_maximum index hlt hle
  refine ⟨?_, mem_sizesWithin.2 ⟨index, ?_, rfl, hlow, hhigh⟩⟩
  · simp only [capacityAt]
    omega
  · exact Nat.le_trans hle hb.maxIndex_le_lastIndex

/-- Where there is none, the indices allowed all lie on one side of the bounds. -/
theorem Bounded.capacityAt_of_no_entry (hb : a.Bounded)
    (hnone : sizesWithin a.minimum a.maximum = []) (hge : a.minIndex ≤ index)
    (hle : index ≤ a.maxIndex) :
    a.capacityAt index = if sizeAt lastIndex < a.minimum then a.minimum else a.maximum := by
  have hlast : index ≤ lastIndex := Nat.le_trans hle hb.maxIndex_le_lastIndex
  have hbounds := hb.minimum_le_maximum
  split
  case isTrue hbeyond =>
    have hsize := sizeAt_le hlast
    simp only [capacityAt]
    omega
  case isFalse hreach =>
    obtain ⟨hfirst, hlarge⟩ :=
      hb.minimum_le_of_entry (Nat.le_refl lastIndex) (Nat.le_of_not_lt hreach)
    -- The size at the smallest index is not between the bounds, so it is beyond the upper one.
    have hhigh : a.maximum < sizeAt a.minIndex := by
      apply Nat.lt_of_not_le
      intro hmax
      have hmem := mem_sizesWithin.2 ⟨a.minIndex, hfirst, rfl, hlarge, hmax⟩
      rw [hnone] at hmem
      cases hmem
    have hsize := sizeAt_le hge
    simp only [capacityAt]
    omega

variable {minimum initial maximum : Nat}

/-- The largest index allowed leaves no size out that lies between the bounds. -/
theorem le_maxIndex_within (hi : i ≤ lastIndex) (hmax : sizeAt i ≤ maximum)
    (hmin : minimum ≤ sizeAt i) : i ≤ (within minimum initial maximum).maxIndex := by
  have hfound : i ≤ indexFor maximum := by
    apply Nat.le_of_not_lt
    intro hlt
    have hlarge := le_sizeAt_indexFor_of_lt (Nat.lt_of_lt_of_le hlt hi)
    have hmono := sizeAt_lt hlt
    omega
  simp only [within]
  split
  case isTrue hcut =>
    have hne : i ≠ indexFor maximum := by
      rintro rfl
      omega
    omega
  case isFalse => exact hfound

theorem initialIndex_within (hmin : minimum ≤ initial) (hmax : initial ≤ maximum) :
    (within minimum initial maximum).initialIndex
      = min (indexFor initial) (within minimum initial maximum).maxIndex := by
  have hb := bounded_within hmin hmax
  have hfirst : (within minimum initial maximum).minIndex ≤ indexFor initial :=
    indexFor_le_indexFor hmin
  have hlast := hb.minIndex_le_maxIndex
  have hdef : (within minimum initial maximum).initialIndex
      = max (within minimum initial maximum).minIndex
        (min (indexFor initial) (within minimum initial maximum).maxIndex) := rfl
  omega

/-- A handle starts at the smallest size between the bounds that holds the initial capacity, or at
the largest where none does. -/
theorem sizeAt_initialIndex (hmin : minimum ≤ initial) (hmax : initial ≤ maximum)
    (hentry : sizesWithin minimum maximum ≠ []) :
    let first := sizeAt (within minimum initial maximum).initialIndex
    IsLeast {size | size ∈ sizesWithin minimum maximum ∧ initial ≤ size} first
      ∨ (∀ size ∈ sizesWithin minimum maximum, size < initial)
        ∧ IsGreatest {size | size ∈ sizesWithin minimum maximum} first := by
  intro first
  have hb := bounded_within hmin hmax
  have hindex := initialIndex_within hmin hmax
  have hmem : first ∈ sizesWithin minimum maximum :=
    (hb.capacityAt_mem hentry hb.minIndex_le_initialIndex hb.initialIndex_le_maxIndex).2
  rcases Nat.lt_or_ge first initial with hsmall | hlarge
  case inr =>
    refine .inl ⟨⟨hmem, hlarge⟩, ?_⟩
    rintro size ⟨hsize, hinitial⟩
    obtain ⟨i, -, rfl, -, -⟩ := mem_sizesWithin.1 hsize
    have hle : indexFor initial ≤ i := by
      apply Nat.le_of_not_lt
      intro hlt
      exact Nat.not_lt.2 hinitial (sizeAt_lt_of_lt_indexFor hlt)
    exact sizeAt_le (by omega)
  case inl =>
    -- The search for the initial capacity went beyond the largest index, where the handle starts.
    have hlast : (within minimum initial maximum).initialIndex
        = (within minimum initial maximum).maxIndex := by
      rcases Nat.lt_or_ge (indexFor initial) (within minimum initial maximum).maxIndex
        with hlt | hge
      · have hfound := le_sizeAt_indexFor_of_lt (Nat.lt_of_lt_of_le hlt hb.maxIndex_le_lastIndex)
        have heq : (within minimum initial maximum).initialIndex = indexFor initial := by omega
        rw [← heq] at hfound
        exact absurd hfound (Nat.not_le.2 hsmall)
      · omega
    have hgreatest : ∀ size ∈ sizesWithin minimum maximum, size ≤ first := by
      intro size hsize
      obtain ⟨i, hi, rfl, hlow, hhigh⟩ := mem_sizesWithin.1 hsize
      have hle : i ≤ (within minimum initial maximum).maxIndex := le_maxIndex_within hi hhigh hlow
      exact sizeAt_le (hlast ▸ hle)
    refine .inr ⟨?_, hmem, hgreatest⟩
    intro size hsize
    exact Nat.lt_of_le_of_lt (hgreatest size hsize) hsmall

end AdaptiveSizing

/-! ## What is done with a handle -/

namespace RecvHandle

/-- What a channel does with its handle: it reports reads, starts a pass, or changes the read
limit. -/
inductive Use where
  | report (bytes capacity : Nat)
  | reset
  | limit (limit : UInt32)

def use (h : RecvHandle) : Use → RecvHandle
  | .report bytes capacity => h.report bytes capacity
  | .reset => h.reset
  | .limit limit => h.withLimit limit

def useAll (us : List Use) (h : RecvHandle) : RecvHandle := us.foldl use h

/-- What is done with the state word meanwhile: it is read, and written anew, by reports only. -/
def Use.onWord (a : AdaptiveSizing) (word : UInt64) : Use → UInt64
  | .report bytes capacity =>
    let state := StateWord.unpack word
    let next := a.advance state.1 state.2 bytes capacity
    StateWord.pack next.1 next.2
  | .reset => word
  | .limit _ => word

/-- The state word of a handle of the strategy after everything that was done with the handle. -/
def wordAfter (a : AdaptiveSizing) (us : List Use) : UInt64 :=
  us.foldl (Use.onWord a) (StateWord.pack a.initialIndex false)

/-- The word holds the handle's index, which the bounds allow, and its flag. -/
structure Keeps (a : AdaptiveSizing) (word : UInt64) (h : RecvHandle) (index : Nat) (armed : Bool) :
    Prop where
  predictor : h.predictor = .adaptive a index armed
  unpack : StateWord.unpack word = (index, armed)
  minIndex_le : a.minIndex ≤ index
  le_maxIndex : index ≤ a.maxIndex

variable {a : AdaptiveSizing} {word : UInt64} {h : RecvHandle} {index : Nat} {armed : Bool}

theorem unpack_pack_of_le (hb : a.Bounded) (hle : index ≤ a.maxIndex) :
    StateWord.unpack (StateWord.pack index armed) = (index, armed) := by
  have hlast := hb.maxIndex_le_lastIndex
  have : lastIndex = 53 := rfl
  exact StateWord.unpack_pack (by omega) armed

theorem keeps_ofStrategy (hb : a.Bounded) :
    Keeps a (StateWord.pack a.initialIndex false) (ofStrategy (.adaptive a)) a.initialIndex
      false where
  predictor := rfl
  unpack := unpack_pack_of_le hb hb.initialIndex_le_maxIndex
  minIndex_le := hb.minIndex_le_initialIndex
  le_maxIndex := hb.initialIndex_le_maxIndex

theorem Keeps.use (hb : a.Bounded) (hk : Keeps a word h index armed) (u : Use) :
    ∃ index' armed', Keeps a (u.onWord a word) (h.use u) index' armed' := by
  cases u with
  | report bytes capacity =>
    obtain ⟨hge, hle⟩ := hb.advance_range hk.minIndex_le hk.le_maxIndex armed bytes capacity
    refine ⟨_, _, report_predictor hk.predictor bytes capacity, ?_, hge, hle⟩
    rw [Use.onWord, hk.unpack]
    exact unpack_pack_of_le hb hle
  | reset => exact ⟨index, armed, hk.predictor, hk.unpack, hk.minIndex_le, hk.le_maxIndex⟩
  | limit => exact ⟨index, armed, hk.predictor, hk.unpack, hk.minIndex_le, hk.le_maxIndex⟩

theorem Keeps.useAll (hb : a.Bounded) (hk : Keeps a word h index armed) (us : List Use) :
    ∃ index' armed', Keeps a (us.foldl (Use.onWord a) word) (h.useAll us) index' armed' := by
  induction us generalizing word h index armed with
  | nil => exact ⟨index, armed, hk⟩
  | cons u rest ih =>
    obtain ⟨_, _, hnext⟩ := hk.use hb u
    exact ih hnext

/-- Whatever is done with a handle of accepted bounds, its word holds an index that the bounds
allow, and what it offers depends on whether a size of the table lies between them. If one does, it
offers only such sizes, starting at the smallest that holds the initial capacity, or at the largest.
If none does, it offers the maximum for ever, or the minimum if that is beyond the table. -/
theorem useAll_nextCapacity {minimum initial maximum : Nat} {st : Strategy}
    (hst : Strategy.ofBounds minimum initial maximum = .ok st) (us : List Use) :
    let a := AdaptiveSizing.within minimum initial maximum
    let h := (ofStrategy st).useAll us
    (∃ index armed, StateWord.unpack (wordAfter a us) = (index, armed)
        ∧ h.predictor = .adaptive a index armed ∧ a.minIndex ≤ index ∧ index ≤ a.maxIndex
        ∧ a.maxIndex < sizes.length)
      ∧ (sizesWithin minimum maximum ≠ [] →
          h.nextCapacity ∈ sizesWithin minimum maximum
          ∧ (IsLeast {size | size ∈ sizesWithin minimum maximum ∧ initial ≤ size}
                (ofStrategy st).nextCapacity
              ∨ (∀ size ∈ sizesWithin minimum maximum, size < initial)
                ∧ IsGreatest {size | size ∈ sizesWithin minimum maximum}
                  (ofStrategy st).nextCapacity))
      ∧ (sizesWithin minimum maximum = [] →
          h.nextCapacity = if sizeAt lastIndex < minimum then minimum else maximum) := by
  obtain ⟨⟨-, hmin, hmax⟩, rfl⟩ := Strategy.ofBounds_eq_ok_iff.1 hst
  intro a h
  have hb : a.Bounded := AdaptiveSizing.bounded_within hmin hmax
  obtain ⟨index, armed, hk⟩ := (keeps_ofStrategy hb).useAll hb us
  have hcapacity : h.nextCapacity = a.capacityAt index := congrArg Predictor.capacity hk.predictor
  have hfirst : (ofStrategy (.adaptive a)).nextCapacity = a.capacityAt a.initialIndex := rfl
  refine ⟨⟨index, armed, hk.unpack, hk.predictor, hk.minIndex_le, hk.le_maxIndex, ?_⟩, ?_, ?_⟩
  · exact Nat.lt_succ_of_le hb.maxIndex_le_lastIndex
  · intro hentry
    obtain ⟨hsize, hmem⟩ := hb.capacityAt_mem hentry hk.minIndex_le hk.le_maxIndex
    obtain ⟨hsize₀, -⟩ :=
      hb.capacityAt_mem hentry hb.minIndex_le_initialIndex hb.initialIndex_le_maxIndex
    rw [hcapacity, hsize, hfirst, hsize₀]
    exact ⟨hmem, AdaptiveSizing.sizeAt_initialIndex hmin hmax hentry⟩
  · intro hnone
    rw [hcapacity]
    exact hb.capacityAt_of_no_entry hnone hk.minIndex_le hk.le_maxIndex

/-- Bounds with sizes between them, bounds between two neighbouring sizes, and bounds beyond the
table, with reports that exceed the buffer, are empty, and come with another capacity. -/
theorem useAll_nextCapacity_three :
    let us : List Use := [.report 4000000000 1, .limit 3, .report 0 0, .reset, .report 0 512]
    let wide := (ofStrategy (.adaptive (.within 100 600 5000))).useAll us
    let narrow := (ofStrategy (.adaptive (.within 17 20 31))).useAll us
    let large := (ofStrategy (.adaptive (.within 3000000000 3100000000 4000000000))).useAll us
    (wide.nextCapacity ∈ sizesWithin 100 5000 ∧ wide.nextCapacity = 2048)
      ∧ narrow.nextCapacity = 31 ∧ large.nextCapacity = 3000000000 := by
  intro us wide narrow large
  have hwide : Strategy.ofBounds 100 600 5000 = .ok (.adaptive (.within 100 600 5000)) := rfl
  have hnarrow : Strategy.ofBounds 17 20 31 = .ok (.adaptive (.within 17 20 31)) := rfl
  have hlarge : Strategy.ofBounds 3000000000 3100000000 4000000000
      = .ok (.adaptive (.within 3000000000 3100000000 4000000000)) := rfl
  refine ⟨⟨?_, by decide⟩, ?_, ?_⟩
  · exact ((useAll_nextCapacity hwide us).2.1 (by decide)).1
  · exact (useAll_nextCapacity hnarrow us).2.2 (by decide)
  · exact (useAll_nextCapacity hlarge us).2.2 (by decide)

end RecvHandle

end FlowControl
