import FlowControl.Proofs.Gate.Settled
import Mathlib.Data.List.Nodup

/-!
# What listeners are told

A flip that a listener causes from inside its callback is told to everybody before the round in
progress has reached the listeners behind it. So a listener may hear of flips out of order, but it
hears of each of them once. Here a flip opens a debt towards every listener that is registered, and
a call pays the latest open debt: `owed` reads the journal in this way, and every operation leaves
the debts as it found them (`Activity.owed_eq`). The first listener is always paid at once, which
is why it alone hears of the flips in their order (`Activity.told_first`).
-/

set_option autoImplicit false

namespace FlowControl

def GateEntry.flip? : GateEntry → Option Bool
  | .notice (.writabilityChanged v _ _ _) => some v
  | _ => none

def GateEntry.told? (i : Nat) : GateEntry → Option Bool
  | .called l v _ => if l = i then some v else none
  | _ => none

/-- The flips of a journal, by the values of the signal. -/
def flips (journal : List GateEntry) : List Bool := journal.filterMap GateEntry.flip?

/-- The values that listener `i` has been told, in the order of the calls. -/
def told (i : Nat) (journal : List GateEntry) : List Bool := journal.filterMap (GateEntry.told? i)

/-- The flips that listener `i` has not been told of, latest first, after a journal that began with
the given ones. A call must be about the latest of them; if it is not, the result is `none`. -/
def owed (i : Nat) : List GateEntry → List Bool → Option (List Bool)
  | [], debts => some debts
  | entry :: journal, debts =>
    match entry.flip?, entry.told? i, debts with
    | some v, _, debts => owed i journal (v :: debts)
    | none, none, debts => owed i journal debts
    | none, some v, debt :: debts => if debt = v then owed i journal debts else none
    | none, some _, [] => none

section Journal

variable {i l : Nat} {v : Bool} {g : Gate} {J K : List GateEntry} {debts debts' : List Bool}

theorem owed_append (J K : List GateEntry) (debts : List Bool) :
    owed i (J ++ K) debts = (owed i J debts).bind (owed i K) := by
  induction J generalizing debts with
  | nil => rfl
  | cons entry J ih =>
    simp only [List.cons_append, owed]
    split
    · exact ih _
    · exact ih _
    · split
      · exact ih _
      · rfl
    · rfl

theorem owed_flip (queued : UInt64) (low high : UInt32) :
    owed i (.notice (.writabilityChanged v queued low high) :: J) debts =
      owed i J (v :: debts) := rfl

theorem owed_did (step : GateStep) (outcome : GateOutcome) :
    owed i (.did step outcome g :: J) debts = owed i J debts := rfl

theorem owed_called_self : owed i (.called i v g :: J) (v :: debts) = owed i J debts := by
  simp [owed, GateEntry.flip?, GateEntry.told?]

theorem owed_called_other (h : l ≠ i) :
    owed i (.called l v g :: J) debts = owed i J debts := by
  simp [owed, GateEntry.flip?, GateEntry.told?, h]

theorem count_told_add_count_owed (h : owed i J debts = some debts') (b : Bool) :
    (told i J).count b + debts'.count b = (flips J).count b + debts.count b := by
  induction J generalizing debts with
  | nil =>
    cases h
    simp [told, flips]
  | cons entry J ih =>
    simp only [owed] at h
    simp only [told, flips] at ih ⊢
    split at h
    -- A flip opens a debt.
    case h_1 v hflip =>
      have htold : entry.told? i = none := by
        cases entry <;> simp_all [GateEntry.flip?, GateEntry.told?]
      have := ih h
      simp only [List.filterMap_cons, hflip, htold, List.count_cons] at this ⊢
      omega
    case h_2 hflip htold =>
      simp only [List.filterMap_cons, hflip, htold]
      exact ih h
    -- A call pays one, of the same value.
    case h_3 v debt debts hflip htold =>
      split at h
      · rename_i heq
        subst heq
        have := ih h
        simp only [List.filterMap_cons, hflip, htold, List.count_cons] at this ⊢
        omega
      · cases h
    case h_4 => cases h

theorem perm_of_owed_eq_nil (h : owed i J [] = some []) : (told i J).Perm (flips J) := by
  rw [List.perm_iff_count]
  intro b
  have hcount := count_told_add_count_owed h b
  rw [List.count_nil, Nat.add_zero, Nat.add_zero] at hcount
  exact hcount

theorem told_append (J K : List GateEntry) : told i (J ++ K) = told i J ++ told i K :=
  List.filterMap_append

theorem flips_append (J K : List GateEntry) : flips (J ++ K) = flips J ++ flips K :=
  List.filterMap_append

theorem told_called_self : told i (.called i v g :: J) = v :: told i J := by
  simp [told, GateEntry.told?]

theorem told_called_other (h : l ≠ i) : told i (.called l v g :: J) = told i J := by
  simp [told, GateEntry.told?, h]

/-- The flips that an explained journal shows alternate, beginning with the signal that the gate
did not have. -/
theorem Explains.getElem_flips {w w' : Bool} (h : Explains w J w') {k : Nat} {b : Bool}
    (hk : (flips J)[k]? = some b) : b = (w == decide (k % 2 = 1)) := by
  induction h generalizing k with
  | nil => simp [flips] at hk
  | called _ _ _ ih | did _ _ _ ih => exact ih hk
  | @flip w v _ queued low high J hw _ _ _ ih =>
    subst hw
    have hcons : flips (.notice (.writabilityChanged v queued low high) :: J) = v :: flips J := rfl
    rw [hcons] at hk
    cases k with
    | zero =>
      rw [List.getElem?_cons_zero, Option.some.injEq] at hk
      subst hk
      simp
    | succ k =>
      rw [List.getElem?_cons_succ] at hk
      rw [ih hk]
      have hodd : decide ((k + 1) % 2 = 1) = !decide (k % 2 = 1) := by
        rcases Nat.mod_two_eq_zero_or_one k with hk | hk
        · simp [Nat.add_mod, hk]
        · simp [Nat.add_mod, hk]
      rw [hodd]
      cases v <;> cases decide (k % 2 = 1) <;> rfl

/-- Between two closings there is one opening, so the signal at the end tells the difference of
their numbers. -/
theorem Explains.count_flips {w w' : Bool} (h : Explains w J w') :
    (flips J).count false + w'.toNat = (flips J).count true + w.toNat := by
  induction h with
  | nil => rfl
  | called _ _ _ ih | did _ _ _ ih => exact ih
  | @flip w v w' queued low high J hw _ _ _ ih =>
    have hcons : flips (.notice (.writabilityChanged v queued low high) :: J) = v :: flips J := rfl
    rw [hcons]
    subst hw
    cases v
    · rw [List.count_cons_self, List.count_cons_of_ne (by decide)]
      simp only [Bool.toNat_false, Bool.not_false, Bool.toNat_true] at ih ⊢
      omega
    · rw [List.count_cons_self, List.count_cons_of_ne (by decide)]
      simp only [Bool.toNat_true, Bool.not_true, Bool.toNat_false] at ih ⊢
      omega

end Journal

/-! ## Activities -/

/-- The listeners of the gate are all those of the session, by number and in order. -/
def GateSession.Numbered (s : GateSession) : Prop :=
  s.gate.listeners = List.range s.listeners.length

theorem GateSession.Numbered.register {s : GateSession} (h : s.Numbered) (label : String)
    (reactions : List (Reaction GateStep)) : (s.register label reactions).Numbered := by
  simp only [Numbered] at h
  simp [Numbered, GateSession.register, Gate.addListener, h, List.range_succ]

theorem GateSession.Numbered.answerCall {s s₁ : GateSession} (h : s.Numbered) {l : Nat} {v : Bool}
    {steps : List GateStep} (hcall : s.answerCall l v = (steps, s₁)) : s₁.Numbered := by
  obtain ⟨hgate, -, hlen⟩ := answerCall_frame hcall
  rw [Numbered, hgate, hlen]
  exact h

theorem GateSession.Numbered.flipTo {s : GateSession} (h : s.Numbered) {g : Gate}
    (hf : s.gate.flipped? = some g) :
    g.listeners = List.range s.listeners.length ∧ (s.flipTo g).Numbered := by
  have hg := congrArg Gate.listeners (Gate.flipped?_frame hf).1
  exact ⟨hg.trans h, hg.trans h⟩

theorem Activity.numbered {t : Task} {J : List GateEntry} {s s' : GateSession}
    (h : Activity t s J s') (hn : s.Numbered) :
    s'.Numbered ∧ s.listeners.length ≤ s'.listeners.length := by
  induction h with
  | finished | idle _ | rest _ | allTold | reacted => exact ⟨hn, Nat.le_refl _⟩
  | register => exact ⟨hn.register _ _, by simp [GateSession.register]⟩
  | store hstore _ ih => exact ih ((GateCall.stored?_listeners hstore).trans hn)
  | run _ _ ihstep ihrest | react _ _ ihstep ihrest =>
    obtain ⟨hmid, hle⟩ := ihstep hn
    obtain ⟨hend, hle'⟩ := ihrest hmid
    exact ⟨hend, Nat.le_trans hle hle'⟩
  | flip hf _ _ ihtell ihsettle =>
    obtain ⟨hmid, hle⟩ := ihtell (hn.flipTo hf).2
    obtain ⟨hend, hle'⟩ := ihsettle hmid
    exact ⟨hend, Nat.le_trans hle hle'⟩
  | tell hcall _ _ ihreact ihtell =>
    obtain ⟨hmid, hle⟩ := ihreact (hn.answerCall hcall)
    obtain ⟨hend, hle'⟩ := ihtell hmid
    exact ⟨hend, Nat.le_trans ((GateSession.answerCall_frame hcall).2.2 ▸ hle) hle'⟩

/-- The debts towards listener `i` that a task takes over: a round owes it the value if the
listener is still to come. -/
def Task.debts (i : Nat) : Task → List Bool
  | .tell ls v => List.replicate (ls.count i) v
  | .run _ | .take _ | .settle | .react _ => []

/-- A round that is about the first `n` listeners owes its value to each of them once. -/
theorem Task.debts_tell_range {i n : Nat} (hi : i < n) {ls : List Nat} (hls : ls = List.range n)
    (v : Bool) : (Task.tell ls v).debts i = [v] := by
  have hcount : (List.range n).count i = 1 :=
    List.count_eq_one_of_mem List.nodup_range (List.mem_range.2 hi)
  rw [hls, debts, hcount, List.replicate_one]

/-- Every activity pays the debts that it opens and those that it took over, and leaves the others
alone. -/
theorem Activity.owed_eq {t : Task} {J : List GateEntry} {s s' : GateSession}
    (h : Activity t s J s') (hn : s.Numbered) {i : Nat} (hi : i < s.listeners.length)
    (debts : List Bool) : owed i J (t.debts i ++ debts) = some debts := by
  induction h generalizing debts with
  | finished | register | idle _ | rest _ | allTold | reacted => rfl
  | store hstore _ ih => exact ih ((GateCall.stored?_listeners hstore).trans hn) hi debts
  | run hstep _ ihstep ihrest =>
    obtain ⟨hmid, hle⟩ := hstep.numbered hn
    have hpaid : owed i _ debts = some debts := ihstep hn hi debts
    rw [Task.debts, List.nil_append, owed_append, hpaid]
    exact ihrest hmid (Nat.lt_of_lt_of_le hi hle) debts
  | react hstep _ ihstep ihrest =>
    obtain ⟨hmid, hle⟩ := hstep.numbered hn
    have hpaid : owed i _ debts = some debts := ihstep hn hi debts
    rw [Task.debts, List.nil_append, owed_append, hpaid, Option.bind_some, owed_did]
    exact ihrest hmid (Nat.lt_of_lt_of_le hi hle) debts
  | @flip g J _ s _ _ hf htell _ ihtell ihsettle =>
    obtain ⟨hg, hn₁⟩ := hn.flipTo hf
    obtain ⟨hmid, hle⟩ := htell.numbered hn₁
    have hpaid := ihtell hn₁ hi debts
    rw [Task.debts_tell_range hi hg, List.singleton_append] at hpaid
    rw [Task.debts, List.nil_append, Gate.flipEntry, owed_flip, owed_append, hpaid]
    exact ihsettle hmid (Nat.lt_of_lt_of_le hi hle) debts
  | @tell l ls v _ J K s _ _ _ hcall hreact _ ihreact ihtell =>
    have hn₁ := hn.answerCall hcall
    have hi₁ := (GateSession.answerCall_frame hcall).2.2 ▸ hi
    obtain ⟨hmid, hle⟩ := hreact.numbered hn₁
    have hrest : owed i (J ++ K) (List.replicate (ls.count i) v ++ debts) = some debts := by
      have hpaid := ihreact hn₁ hi₁ (List.replicate (ls.count i) v ++ debts)
      rw [Task.debts, List.nil_append] at hpaid
      rw [owed_append, hpaid]
      exact ihtell hmid (Nat.lt_of_lt_of_le hi₁ hle) debts
    rw [Task.debts]
    by_cases hl : l = i
    · subst hl
      rw [List.count_cons_self, List.replicate_succ, List.cons_append, owed_called_self]
      exact hrest
    · rw [List.count_cons_of_ne hl, owed_called_other hl]
      exact hrest

/-- When a round is begun or continued, the first listener is not among those who wait behind
somebody else, and if it is its turn the signal still has the value that it is told. -/
def Task.FirstInTurn (s : GateSession) : Task → Prop
  | .tell ls v => 0 ∉ ls.tail ∧ (0 ∈ ls → s.gate.writable = v)
  | .run _ | .take _ | .settle | .react _ => True

/-- The first listener hears of every flip before anything else happens: its calls are the flips,
in their order, and each finds the signal at the value that it tells. -/
theorem Activity.told_first {t : Task} {J : List GateEntry} {s s' : GateSession}
    (h : Activity t s J s') (hn : s.Numbered) (hpos : 0 < s.listeners.length)
    (ht : t.FirstInTurn s) :
    told 0 J = t.debts 0 ++ flips J ∧ ∀ v g, .called 0 v g ∈ J → g.writable = v := by
  induction h with
  | finished | register | idle _ | rest _ | allTold | reacted => exact ⟨rfl, nofun⟩
  | store hstore _ ih => exact ih ((GateCall.stored?_listeners hstore).trans hn) hpos trivial
  | run hstep _ ihstep ihrest =>
    obtain ⟨hmid, hle⟩ := hstep.numbered hn
    obtain ⟨htold, hcalls⟩ := ihstep hn hpos trivial
    obtain ⟨htold', hcalls'⟩ := ihrest hmid (Nat.lt_of_lt_of_le hpos hle) trivial
    simp only [Task.debts, List.nil_append] at htold htold' ⊢
    refine ⟨?_, ?_⟩
    · rw [told_append, flips_append, htold, htold']
    · intro v g hmem
      exact (List.mem_append.1 hmem).elim (hcalls v g) (hcalls' v g)
  | react hstep _ ihstep ihrest =>
    obtain ⟨hmid, hle⟩ := hstep.numbered hn
    obtain ⟨htold, hcalls⟩ := ihstep hn hpos trivial
    obtain ⟨htold', hcalls'⟩ := ihrest hmid (Nat.lt_of_lt_of_le hpos hle) trivial
    simp only [Task.debts, List.nil_append] at htold htold' ⊢
    refine ⟨?_, ?_⟩
    · rw [told_append, flips_append, htold]
      exact congrArg _ htold'
    · intro v g hmem
      rcases List.mem_append.1 hmem with hmem | hmem
      · exact hcalls v g hmem
      · exact hcalls' v g (by simpa using hmem)
  | @flip g J K s _ _ hf htell _ ihtell ihsettle =>
    obtain ⟨hg, hn₁⟩ := hn.flipTo hf
    obtain ⟨hmid, hle⟩ := htell.numbered hn₁
    -- All listeners are told, so the first one is at the head of the round.
    have hturn : (Task.tell g.listeners g.writable).FirstInTurn (s.flipTo g) := by
      obtain ⟨n, hlen⟩ := Nat.exists_eq_add_of_lt hpos
      refine ⟨?_, fun _ => rfl⟩
      rw [hg, hlen, Nat.zero_add, List.range_succ_eq_map]
      simp
    obtain ⟨htold, hcalls⟩ := ihtell hn₁ hpos hturn
    obtain ⟨htold', hcalls'⟩ := ihsettle hmid (Nat.lt_of_lt_of_le hpos hle) trivial
    rw [Task.debts_tell_range hpos hg, List.singleton_append] at htold
    rw [Task.debts, List.nil_append] at htold'
    refine ⟨?_, ?_⟩
    · show told 0 (J ++ K) = g.writable :: flips (J ++ K)
      rw [told_append, flips_append, htold, htold', List.cons_append]
    · intro v g hmem
      have hmem : .called 0 v g ∈ J ++ K := by simpa [Gate.flipEntry] using hmem
      exact (List.mem_append.1 hmem).elim (hcalls v g) (hcalls' v g)
  | @tell l ls v _ J K s _ _ _ hcall hreact _ ihreact ihtell =>
    obtain ⟨hlast, hvalue⟩ := ht
    rw [List.tail_cons] at hlast
    have hnone : ls.count 0 = 0 := List.count_eq_zero.2 hlast
    have hturn : ∀ s, (Task.tell ls v).FirstInTurn s := fun _ =>
      ⟨fun hmem => hlast (List.mem_of_mem_tail hmem), fun hmem => absurd hmem hlast⟩
    have hn₁ := hn.answerCall hcall
    have hpos₁ := (GateSession.answerCall_frame hcall).2.2 ▸ hpos
    obtain ⟨hmid, hle⟩ := hreact.numbered hn₁
    obtain ⟨htold, hcalls⟩ := ihreact hn₁ hpos₁ trivial
    obtain ⟨htold', hcalls'⟩ := ihtell hmid (Nat.lt_of_lt_of_le hpos₁ hle) (hturn _)
    simp only [Task.debts, hnone, List.replicate_zero, List.nil_append] at htold htold'
    refine ⟨?_, ?_⟩
    · show _ = _ ++ flips (J ++ K)
      rw [Task.debts]
      by_cases hl : l = 0
      · subst hl
        rw [List.count_cons_self, hnone, List.replicate_one, told_called_self, told_append,
          flips_append, htold, htold', List.singleton_append]
      · rw [List.count_cons_of_ne hl, hnone, List.replicate_zero, told_called_other hl,
          told_append, flips_append, htold, htold', List.nil_append]
    · intro v' g hmem
      rcases List.mem_cons.1 hmem with heq | hmem
      · cases heq
        exact hvalue List.mem_cons_self
      · exact (List.mem_append.1 hmem).elim (hcalls v' g) (hcalls' v' g)

/-! ## Runs -/

namespace GateSession

/-- In every run on a fresh gate, whatever its listeners do from inside their callbacks, each
listener that was there before the run is called once for every flip, so that the values it was
told add up to the signal. The first one is told the flips in their order, which is closed, open,
closed and so on, and finds the signal as it is told every time. -/
theorem runAll_told (marks : WaterMark) (listeners : List (Listener GateStep))
    (steps : List GateStep) :
    let s := runAll steps (start marks listeners)
    (∀ i < listeners.length,
      owed i s.journal [] = some [] ∧ (told i s.journal).Perm (flips s.journal) ∧
        (told i s.journal).count false =
          (told i s.journal).count true + if s.gate.writable then 0 else 1) ∧
    (listeners ≠ [] →
      told 0 s.journal = flips s.journal ∧
        (∀ (k : Nat) (hk : k < (told 0 s.journal).length),
          (told 0 s.journal)[k] = decide (k % 2 = 1)) ∧
        ∀ v g, .called 0 v g ∈ s.journal → g.writable = v) := by
  have hexp := (runAll_start_explained marks listeners steps).2
  rw [start_eq_fresh] at hexp ⊢
  intro s
  obtain ⟨J, hrun⟩ := runAll_activity steps (fresh marks listeners)
  have hjournal : s.journal = J := hrun.journal_eq
  have hn : (fresh marks listeners).Numbered := rfl
  refine ⟨?_, ?_⟩
  · intro i hi
    have howed : owed i s.journal [] = some [] := by
      rw [hjournal]
      exact hrun.owed_eq hn hi []
    have hperm : (told i s.journal).Perm (flips s.journal) := perm_of_owed_eq_nil howed
    have hflips : (flips s.journal).count false + s.gate.writable.toNat =
        (flips s.journal).count true + 1 := hexp.count_flips
    refine ⟨howed, hperm, ?_⟩
    rw [hperm.count_eq, hperm.count_eq]
    cases hw : s.gate.writable
    · rw [hw, Bool.toNat_false] at hflips
      rw [if_neg Bool.false_ne_true]
      omega
    · rw [hw, Bool.toNat_true] at hflips
      rw [if_pos rfl]
      omega
  · intro hne
    obtain ⟨htold, hcalls⟩ := hrun.told_first hn (List.length_pos_iff.2 hne) trivial
    rw [← hjournal, Task.debts, List.nil_append] at htold
    rw [← hjournal] at hcalls
    refine ⟨htold, ?_, hcalls⟩
    intro k hk
    have hget : (flips s.journal)[k]? = some (told 0 s.journal)[k] := by
      rw [← htold, List.getElem?_eq_getElem hk]
    rw [hexp.getElem_flips hget]
    exact Bool.true_beq _

/-- A listener behind the first one may hear of a flip late: here the first one flushes the queue
when it is told that the gate has closed, and the second one is told of the opening before. -/
example :
    let first : Listener GateStep := ⟨"first", [⟨false, [.call (.flush 30)]⟩]⟩
    let s := runAll [.call (.queue 30)] (start ⟨10, 20, by decide⟩ [first, ⟨"second", []⟩])
    told 0 s.journal = [false, true] ∧ told 1 s.journal = [true, false] := by
  cbv

end GateSession

end FlowControl
