import FlowControl.Proofs.Sizing.Shrinking

/-!
# Steady load

A source that has the same number of bytes ready for every read should be given, before long, the
smallest buffer that holds them, and nothing should change from then on. A handle gets there in two
phases. While its buffer is too small every read fills it, and it moves up four entries at a time,
which may take it up to three entries too far. While its buffer is larger than it has to be every
read is short, and two of them take it down one entry. `AdaptiveSizing.distance` counts the reports
that this can take at most, and every report takes one off (`Bounded.distance_advance_le`).

Two kinds of handles never come to rest and are left out. One at the first entry of the table cannot
grow. And a load that is itself a size of the table fills the very buffer that fits it, so that the
handle moves up again and again.
-/

set_option autoImplicit false

namespace FlowControl

open SizeTable

namespace AdaptiveSizing

/-- The index at which a handle comes to rest: the first allowed whose size holds the load, or the
last allowed if none does. -/
def restingIndex (a : AdaptiveSizing) (load : Nat) : Nat :=
  max a.minIndex (min (indexFor load) a.maxIndex)

/-- How many reports it can take at most until the handle rests. On the way up each report is good
for one entry at least, and six more may be needed to come back from three entries too far. On the
way down each entry takes two reports, of which a pending decrease is one. -/
def distance (a : AdaptiveSizing) (load index : Nat) (armed : Bool) : Nat :=
  if index < a.restingIndex load then a.restingIndex load - index + 6
  else 2 * (index - a.restingIndex load) - armed.toNat

section Resting

variable {a : AdaptiveSizing} {load index : Nat} {armed : Bool}

theorem minIndex_le_restingIndex : a.minIndex ≤ a.restingIndex load := Nat.le_max_left _ _

theorem Bounded.restingIndex_le_maxIndex (hb : a.Bounded) : a.restingIndex load ≤ a.maxIndex :=
  Nat.max_le.2 ⟨hb.minIndex_le_maxIndex, Nat.min_le_right _ _⟩

theorem distance_of_lt (h : index < a.restingIndex load) :
    a.distance load index armed = a.restingIndex load - index + 6 := if_pos h

theorem distance_of_le (h : a.restingIndex load ≤ index) :
    a.distance load index armed = 2 * (index - a.restingIndex load) - armed.toNat :=
  if_neg (Nat.not_lt.2 h)

theorem distance_eq_zero_iff : a.distance load index armed = 0 ↔ index = a.restingIndex load := by
  rcases Nat.lt_or_ge index (a.restingIndex load) with hlt | hge
  · rw [distance_of_lt hlt]
    omega
  · have hflag := armed.toNat_le
    rw [distance_of_le hge]
    omega

theorem Bounded.distance_le (hb : a.Bounded) (hle : index ≤ a.maxIndex) :
    a.distance load index armed ≤ 110 := by
  have hrest : a.restingIndex load ≤ a.maxIndex := hb.restingIndex_le_maxIndex
  have hlast : a.maxIndex ≤ 53 := hb.maxIndex_le_lastIndex
  rcases Nat.lt_or_ge index (a.restingIndex load) with hlt | hge
  · rw [distance_of_lt hlt]
    omega
  · rw [distance_of_le hge]
    omega

/-! ## Below, at and above the resting index -/

/-- Below the resting index no buffer holds the load. -/
theorem Bounded.capacityAt_lt_load (hb : a.Bounded) (hge : a.minIndex ≤ index)
    (hlt : index < a.restingIndex load) : a.capacityAt index < load := by
  have hmax : a.restingIndex load ≤ a.maxIndex := hb.restingIndex_le_maxIndex
  have hlast := hb.maxIndex_le_lastIndex
  have hfound : index < indexFor load := by
    unfold restingIndex at hlt
    omega
  calc a.capacityAt index ≤ sizeAt index := hb.capacityAt_le_sizeAt (by omega) hge
    _ < load := sizeAt_lt_of_lt_indexFor hfound

/-- Above it even the preceding size holds the load. -/
theorem Bounded.load_le_sizeAt_pred (hb : a.Bounded) (hlt : a.restingIndex load < index)
    (hle : index ≤ a.maxIndex) : load ≤ sizeAt (index - 1) := by
  have hlast := hb.maxIndex_le_lastIndex
  have hfound : indexFor load ≤ index - 1 := by
    unfold restingIndex at hlt
    omega
  exact Nat.le_trans (le_sizeAt_indexFor_of_lt (by omega)) (sizeAt_le hfound)

/-- A handle that rests below the last index allowed has a buffer that holds the load. -/
theorem Bounded.load_le_capacityAt (hb : a.Bounded) (hlt : a.restingIndex load < a.maxIndex) :
    load ≤ a.capacityAt (a.restingIndex load) := by
  have hsize := hb.load_le_sizeAt_pred (Nat.lt_succ_self _) hlt
  rw [hb.capacityAt_eq_sizeAt_of_lt (Nat.lt_of_le_of_lt minIndex_le_restingIndex hlt)
    minIndex_le_restingIndex (Nat.le_of_lt hlt)]
  exact hsize

/-- What a handle offers at rest is the least of all that holds the load, or the largest of all. -/
theorem Bounded.capacityAt_restingIndex (hb : a.Bounded) (hge : a.minIndex ≤ index)
    (hle : index ≤ a.maxIndex) :
    (load ≤ a.capacityAt (a.restingIndex load) → load ≤ a.capacityAt index →
        a.capacityAt (a.restingIndex load) ≤ a.capacityAt index)
      ∧ (a.capacityAt (a.restingIndex load) < load →
        a.capacityAt index ≤ a.capacityAt (a.restingIndex load)) := by
  constructor
  · intro _ hload
    apply capacityAt_le_capacityAt
    apply Nat.le_of_not_lt
    intro hlt
    exact Nat.not_lt.2 hload (hb.capacityAt_lt_load hge hlt)
  · intro hsmall
    apply capacityAt_le_capacityAt
    apply Nat.le_of_not_lt
    intro hlt
    exact Nat.not_le.2 hsmall (hb.load_le_capacityAt (Nat.lt_of_lt_of_le hlt hle))

/-! ## One report of the load -/

/-- A buffer that is too small is filled. -/
theorem Bounded.advance_of_lt_restingIndex (hb : a.Bounded) (hpos : 0 < index)
    (hge : a.minIndex ≤ index) (hlt : index < a.restingIndex load) :
    a.advance index armed (min load (a.capacityAt index)) (a.capacityAt index)
      = (min (index + growth) a.maxIndex, false) := by
  have hmax : a.restingIndex load ≤ a.maxIndex := hb.restingIndex_le_maxIndex
  have hlong := hb.sizeAt_pred_lt_capacityAt hpos hge (by omega)
  rw [Nat.min_eq_right (Nat.le_of_lt (hb.capacityAt_lt_load hge hlt))]
  unfold advance
  rw [if_neg (Nat.not_le.2 hlong), if_pos ⟨Nat.zero_lt_of_lt hlong, Nat.le_refl _⟩]

/-- A buffer that is larger than it has to be sees a short read. -/
theorem Bounded.advance_of_restingIndex_lt (hb : a.Bounded) (hlt : a.restingIndex load < index)
    (hle : index ≤ a.maxIndex) (capacity : Nat) :
    a.advance index armed (min load (a.capacityAt index)) capacity
      = if armed then (index - 1, false) else (index, true) := by
  have hshort : min load (a.capacityAt index) ≤ sizeAt (index - 1) :=
    Nat.le_trans (Nat.min_le_left _ _) (hb.load_le_sizeAt_pred hlt hle)
  have hfirst : a.minIndex ≤ a.restingIndex load := minIndex_le_restingIndex
  rw [advance_of_short hshort, Nat.max_eq_left (by omega)]

/-- At rest a read is short only where nothing is below. -/
theorem Bounded.restingIndex_of_short (hb : a.Bounded)
    (hshort : min load (a.capacityAt (a.restingIndex load)) ≤ sizeAt (a.restingIndex load - 1)) :
    a.restingIndex load = a.minIndex := by
  have hge : a.minIndex ≤ a.restingIndex load := minIndex_le_restingIndex
  have hle : a.restingIndex load ≤ a.maxIndex := hb.restingIndex_le_maxIndex
  apply Nat.le_antisymm _ hge
  apply Nat.le_of_not_lt
  intro hlt
  have hfound : a.restingIndex load - 1 < indexFor load := by
    unfold restingIndex at *
    omega
  have hload := sizeAt_lt_of_lt_indexFor hfound
  have hcapacity := hb.sizeAt_pred_lt_capacityAt (by omega) hge hle
  omega

/-- At rest a load that is no size of the table fills the buffer only where nothing is above. -/
theorem Bounded.restingIndex_of_full (hb : a.Bounded) (hload : load ∉ sizes)
    (hfull : a.capacityAt (a.restingIndex load) ≤ load) : a.restingIndex load = a.maxIndex := by
  have hge : a.minIndex ≤ a.restingIndex load := minIndex_le_restingIndex
  have hle : a.restingIndex load ≤ a.maxIndex := hb.restingIndex_le_maxIndex
  apply Nat.le_antisymm hle
  apply Nat.le_of_not_lt
  intro hlt
  have hfits : load ≤ a.capacityAt (a.restingIndex load) := hb.load_le_capacityAt hlt
  have hsize := hb.capacityAt_eq_sizeAt_of_lt (Nat.lt_of_le_of_lt hge hlt) hge hle
  have heq : load = sizeAt (a.restingIndex load) := by omega
  apply hload
  rw [heq]
  exact List.mem_map_of_mem (List.mem_range.2 (Nat.lt_succ_of_le
    (Nat.le_trans hle hb.maxIndex_le_lastIndex)))

/-- At rest the load is neither short enough to move the handle down nor, if it is no size of the
table, long enough to move it up. -/
theorem Bounded.advance_restingIndex (hb : a.Bounded) (hload : load ∉ sizes) :
    (a.advance (a.restingIndex load) armed (min load (a.capacityAt (a.restingIndex load)))
      (a.capacityAt (a.restingIndex load))).1 = a.restingIndex load := by
  unfold advance
  split
  case isTrue hshort =>
    have hfirst := hb.restingIndex_of_short hshort
    cases armed with
    | false => rfl
    | true =>
      simp only [if_true]
      omega
  case isFalse =>
    split
    case isTrue hfull =>
      have hlast := hb.restingIndex_of_full hload (Nat.le_min.1 hfull.2).1
      simp only [growth]
      omega
    case isFalse => rfl

/-- Every report of the load brings the handle nearer to its rest, or leaves it there. It never
takes a handle that has to grow to the first entry of the table. -/
theorem Bounded.distance_advance_le (hb : a.Bounded) (hload : load ∉ sizes)
    (hge : a.minIndex ≤ index) (hle : index ≤ a.maxIndex)
    (hgrows : index = 0 → a.restingIndex load = 0) (armed : Bool) :
    let next := a.advance index armed (min load (a.capacityAt index)) (a.capacityAt index)
    a.distance load next.1 next.2 ≤ a.distance load index armed - 1
      ∧ (next.1 = 0 → a.restingIndex load = 0) := by
  have hmax : a.restingIndex load ≤ a.maxIndex := hb.restingIndex_le_maxIndex
  intro next
  rcases Nat.lt_trichotomy index (a.restingIndex load) with hlow | hrest | hhigh
  · have hnext : next = (min (index + growth) a.maxIndex, false) :=
      hb.advance_of_lt_restingIndex (by omega) hge hlow
    have hup : index + 1 ≤ min (index + growth) a.maxIndex := by
      simp only [growth]
      omega
    have htop : min (index + growth) a.maxIndex ≤ index + 4 := Nat.min_le_left _ _
    rw [hnext, distance_of_lt hlow]
    refine ⟨?_, fun hzero => by omega⟩
    rcases Nat.lt_or_ge (min (index + growth) a.maxIndex) (a.restingIndex load) with hlt | hge
    · rw [distance_of_lt hlt]
      omega
    · -- Gone too far, by three entries at most.
      rw [distance_of_le hge, Bool.toNat_false]
      omega
  · have hnext : next.1 = a.restingIndex load := by
      subst hrest
      exact hb.advance_restingIndex hload
    rw [hnext]
    refine ⟨?_, id⟩
    rw [distance_eq_zero_iff.2 rfl]
    exact Nat.zero_le _
  · have hnext : next = if armed then (index - 1, false) else (index, true) :=
      hb.advance_of_restingIndex_lt hhigh hle _
    rw [hnext, distance_of_le (Nat.le_of_lt hhigh)]
    cases armed with
    | false =>
      rw [if_neg Bool.false_ne_true, distance_of_le (Nat.le_of_lt hhigh)]
      refine ⟨?_, fun hzero => by omega⟩
      simp
    | true =>
      rw [if_pos rfl, distance_of_le (Nat.le_sub_one_of_lt hhigh), Bool.toNat_true,
        Bool.toNat_false]
      refine ⟨?_, fun hzero => by omega⟩
      omega

end Resting

end AdaptiveSizing

namespace RecvHandle

/-! ## Runs under a steady load -/

def Use.isReport : Use → Bool
  | .report _ _ => true
  | .reset | .limit _ => false

def reportCount (us : List Use) : Nat := us.countP Use.isReport

/-- Every report is of the load, as far as the offered buffer holds it. Passes may begin and read
limits may change between the reports. -/
def Steady (load : Nat) : RecvHandle → List Use → Prop
  | _, [] => True
  | h, u :: us =>
    (∀ bytes capacity, u = .report bytes capacity →
        bytes = min load h.nextCapacity ∧ capacity = h.nextCapacity)
      ∧ Steady load (h.use u) us

theorem useAll_append (us vs : List Use) (h : RecvHandle) :
    h.useAll (us ++ vs) = (h.useAll us).useAll vs := List.foldl_append

/-- So many reports of the load, and nothing else. -/
def steadyReports (load : Nat) : Nat → RecvHandle → List Use
  | 0, _ => []
  | n + 1, h =>
    let u := .report (min load h.nextCapacity) h.nextCapacity
    u :: steadyReports load n (h.use u)

theorem steady_steadyReports (load n : Nat) (h : RecvHandle) :
    Steady load h (steadyReports load n h) := by
  induction n generalizing h with
  | zero => trivial
  | succ n ih =>
    refine ⟨?_, ih _⟩
    intro bytes capacity heq
    cases heq
    exact ⟨rfl, rfl⟩

theorem reportCount_steadyReports (load n : Nat) (h : RecvHandle) :
    reportCount (steadyReports load n h) = n := by
  induction n generalizing h with
  | zero => rfl
  | succ n ih => exact (List.countP_cons_of_pos rfl).trans (congrArg (· + 1) (ih _))

/-- The handle stands at an index that the bounds allow, and not at the first entry of the table if
it has to grow from there. -/
structure Settling (a : AdaptiveSizing) (load : Nat) (h : RecvHandle) (index : Nat)
    (armed : Bool) : Prop where
  predictor : h.predictor = .adaptive a index armed
  minIndex_le : a.minIndex ≤ index
  le_maxIndex : index ≤ a.maxIndex
  grows : index = 0 → a.restingIndex load = 0

section Settling

variable {a : AdaptiveSizing} {load index : Nat} {armed : Bool} {h : RecvHandle} {vs : List Use}

theorem Settling.report (hb : a.Bounded) (hload : load ∉ sizes)
    (hs : Settling a load h index armed) :
    ∃ index' armed',
      Settling a load (h.report (min load h.nextCapacity) h.nextCapacity) index' armed'
        ∧ a.distance load index' armed' ≤ a.distance load index armed - 1 := by
  rw [nextCapacity_eq hs.predictor]
  obtain ⟨hnear, hgrows⟩ :=
    hb.distance_advance_le hload hs.minIndex_le hs.le_maxIndex hs.grows armed
  obtain ⟨hge, hle⟩ := hb.advance_range hs.minIndex_le hs.le_maxIndex armed
    (min load (a.capacityAt index)) (a.capacityAt index)
  exact ⟨_, _, ⟨report_predictor hs.predictor _ _, hge, hle, hgrows⟩, hnear⟩

theorem Settling.useAll (hb : a.Bounded) (hload : load ∉ sizes)
    (hs : Settling a load h index armed) (hsteady : Steady load h vs) :
    ∃ index' armed', Settling a load (h.useAll vs) index' armed'
      ∧ a.distance load index' armed' ≤ a.distance load index armed - reportCount vs := by
  induction vs generalizing h index armed with
  | nil => exact ⟨index, armed, hs, Nat.le_refl _⟩
  | cons u vs ih =>
    obtain ⟨hreport, hrest⟩ := hsteady
    cases u with
    | report bytes capacity =>
      obtain ⟨rfl, rfl⟩ := hreport bytes capacity rfl
      obtain ⟨index₁, armed₁, hs₁, hnear₁⟩ := hs.report hb hload
      obtain ⟨index', armed', hs', hnear'⟩ := ih hs₁ hrest
      refine ⟨index', armed', hs', ?_⟩
      have hcount : reportCount (.report (min load h.nextCapacity) h.nextCapacity :: vs)
          = reportCount vs + 1 := List.countP_cons_of_pos rfl
      omega
    | reset | limit =>
      exact ih ⟨hs.predictor, hs.minIndex_le, hs.le_maxIndex, hs.grows⟩ hrest

/-- After 110 reports of the load the handle rests. -/
theorem Settling.nextCapacity_useAll (hb : a.Bounded) (hload : load ∉ sizes)
    (hs : Settling a load h index armed) (hsteady : Steady load h vs)
    (hcount : 110 ≤ reportCount vs) :
    (h.useAll vs).nextCapacity = a.capacityAt (a.restingIndex load) := by
  obtain ⟨index', armed', hs', hnear⟩ := hs.useAll hb hload hsteady
  have hfar : a.distance load index armed ≤ 110 := hb.distance_le hs.le_maxIndex
  have hrest := AdaptiveSizing.distance_eq_zero_iff.1 (by omega : a.distance load index' armed' = 0)
  rw [nextCapacity_eq hs'.predictor, hrest]

end Settling

end RecvHandle

/-- A handle of the strategy can come to offer this capacity. -/
def Strategy.Offers (st : Strategy) (capacity : Nat) : Prop :=
  ∃ us, ((RecvHandle.ofStrategy st).useAll us).nextCapacity = capacity

namespace RecvHandle

theorem exists_index_of_offers {a : AdaptiveSizing} (hb : a.Bounded) {capacity : Nat}
    (ho : (Strategy.adaptive a).Offers capacity) :
    ∃ index, a.minIndex ≤ index ∧ index ≤ a.maxIndex ∧ capacity = a.capacityAt index := by
  obtain ⟨us, rfl⟩ := ho
  obtain ⟨index, armed, hk⟩ := (keeps_ofStrategy hb).useAll hb us
  exact ⟨index, hk.minIndex_le, hk.le_maxIndex, nextCapacity_eq hk.predictor⟩

/-- Under a steady load that is no size of the table, a handle that offers more than 16 bytes comes
to rest after 110 reports: from then on it offers the least of all capacities that hold the load, or
the largest of all if none does. -/
theorem steady_nextCapacity {minimum initial maximum load : Nat} {st : Strategy}
    (hst : Strategy.ofBounds minimum initial maximum = .ok st) (us : List Use)
    (hcap : 16 < ((ofStrategy st).useAll us).nextCapacity) (hload : load ∉ sizes) :
    let h := (ofStrategy st).useAll us
    ∃ fit, (IsLeast {c | st.Offers c ∧ load ≤ c} fit
        ∨ (∀ c, st.Offers c → c < load) ∧ IsGreatest {c | st.Offers c} fit)
      ∧ ∀ vs, Steady load h vs → 110 ≤ reportCount vs → (h.useAll vs).nextCapacity = fit := by
  obtain ⟨⟨-, hmin, hmax⟩, rfl⟩ := Strategy.ofBounds_eq_ok_iff.1 hst
  have hb := AdaptiveSizing.bounded_within hmin hmax
  generalize AdaptiveSizing.within minimum initial maximum = a at hb hcap ⊢
  intro h
  obtain ⟨index, armed, hk⟩ := (keeps_ofStrategy hb).useAll hb us
  have hs : Settling a load h index armed := by
    refine ⟨hk.predictor, hk.minIndex_le, hk.le_maxIndex, ?_⟩
    rintro rfl
    -- Only the first entry of the table offers 16 bytes or fewer.
    rw [nextCapacity_eq hk.predictor] at hcap
    have hfew := (hb.capacityAt_le_sixteen_iff hk.minIndex_le hk.le_maxIndex).2 rfl
    exact absurd hcap (Nat.not_lt.2 hfew)
  have hrest : ∀ vs, Steady load h vs → 110 ≤ reportCount vs →
      (h.useAll vs).nextCapacity = a.capacityAt (a.restingIndex load) :=
    fun vs hsteady hcount => hs.nextCapacity_useAll hb hload hsteady hcount
  have hoffers : (Strategy.adaptive a).Offers (a.capacityAt (a.restingIndex load)) := by
    refine ⟨us ++ steadyReports load 110 h, ?_⟩
    rw [useAll_append]
    exact hrest _ (steady_steadyReports load 110 h)
      (Nat.le_of_eq (reportCount_steadyReports load 110 h).symm)
  refine ⟨a.capacityAt (a.restingIndex load), ?_, hrest⟩
  rcases Nat.lt_or_ge (a.capacityAt (a.restingIndex load)) load with hsmall | hlarge
  · have hall : ∀ c, (Strategy.adaptive a).Offers c → c ≤ a.capacityAt (a.restingIndex load) := by
      intro c hc
      obtain ⟨i, hge, hle, rfl⟩ := exists_index_of_offers hb hc
      exact (hb.capacityAt_restingIndex hge hle).2 hsmall
    exact .inr ⟨fun c hc => Nat.lt_of_le_of_lt (hall c hc) hsmall, hoffers, hall⟩
  · refine .inl ⟨⟨hoffers, hlarge⟩, ?_⟩
    rintro c ⟨hc, hholds⟩
    obtain ⟨i, hge, hle, rfl⟩ := exists_index_of_offers hb hc
    exact (hb.capacityAt_restingIndex hge hle).1 hlarge hholds

/-- From 32768 bytes on, with a decrease pending, a load of 700 bytes brings a handle of the
standard bounds down to 1024 bytes. -/
theorem steady_nextCapacity_standard :
    let us : List Use := [.report 5000 2048, .report 0 32768]
    let h := (ofStrategy .standard).useAll us
    let vs := Use.reset :: steadyReports 700 110 h.reset
    Strategy.ofBounds 64 2048 65536 = .ok .standard
      ∧ 16 < h.nextCapacity ∧ 700 ∉ sizes ∧ Steady 700 h vs ∧ 110 ≤ reportCount vs
      ∧ h.nextCapacity = 32768 ∧ (h.useAll vs).nextCapacity = 1024
      ∧ IsLeast {c | Strategy.standard.Offers c ∧ 700 ≤ c} 1024 := by
  intro us h vs
  have hst : Strategy.ofBounds 64 2048 65536 = .ok .standard := rfl
  have hstart : h.nextCapacity = 32768 := by decide
  have hcap : 16 < h.nextCapacity := by omega
  have hload : 700 ∉ sizes := by decide
  have hsteady : Steady 700 h vs := ⟨nofun, steady_steadyReports 700 110 h.reset⟩
  have hcount : 110 ≤ reportCount vs := by
    rw [reportCount, List.countP_cons_of_neg Bool.false_ne_true]
    exact Nat.le_of_eq (reportCount_steadyReports 700 110 h.reset).symm
  have hend : (h.useAll vs).nextCapacity = 1024 := by decide +kernel
  obtain ⟨fit, hfit, hrest⟩ := steady_nextCapacity hst us hcap hload
  have heq : fit = 1024 := (hrest vs hsteady hcount).symm.trans hend
  subst heq
  refine ⟨hst, hcap, hload, hsteady, hcount, hstart, hend, ?_⟩
  rcases hfit with hleast | ⟨hsmall, -, hgreatest⟩
  · exact hleast
  · have hoffers : Strategy.standard.Offers 1024 := ⟨us ++ vs, by rw [useAll_append]; exact hend⟩
    exact absurd (hsmall 1024 hoffers) (by decide)

end RecvHandle

end FlowControl
