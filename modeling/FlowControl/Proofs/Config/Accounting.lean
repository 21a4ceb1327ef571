import FlowControl.Proofs.Config.Busy
import FlowControl.Proofs.Config.Sound
import Mathlib.Data.List.Perm.Basic

/-!
# Messages and the count of the gate

A message is charged when it is queued and released when it is written, each time at the size that
the estimator in force gives it. The gate keeps the sum only; nothing remembers what a message was
charged with. So the count is right as long as releases take off what was charged, whoever replaces
the estimator in between, and `Deal.Fits` says what that takes of each deal: a release has to be of
the size of the charge, except that the last message may be released at more, because the count
stops at zero. The condition is exact: a deal that does not fit is seen in the count at once
(`tallies_charge_iff`, `tallies_discharge_iff`).

Between two deals anything may happen but counting bytes by other calls, also from inside callbacks,
which may send and release messages themselves.
-/

set_option autoImplicit false

namespace FlowControl

/-! ## Deals -/

/-- The deal leaves the count right: a charge does not overflow it, and a release takes off what was
charged. -/
def Deal.Fits : Deal → Prop
  | .charged due size => due + size.toNat < UInt64.size
  | .released charge size others => size = charge ∨ others = 0 ∧ charge ≤ size

instance (d : Deal) : Decidable d.Fits := by
  cases d <;> unfold Deal.Fits <;> infer_instance

namespace Ledger

/-- All deals so far have fitted. -/
def Orderly (l : Ledger) : Prop := ∀ d ∈ l.deals, d.Fits

instance (l : Ledger) : Decidable l.Orderly := by unfold Orderly; infer_instance

theorem due_charge (m : Message) (size : UInt64) (l : Ledger) :
    (l.charge m size).due = l.due + size.toNat := by
  simp [due, charge]

theorem orderly_charge_iff {m : Message} {size : UInt64} {l : Ledger} :
    (l.charge m size).Orderly ↔ l.Orderly ∧ (Deal.charged l.due size).Fits := by
  simp [Orderly, charge, or_imp, forall_and]

/-- What is due is the charge of one message beside the charges of the others. -/
theorem due_eraseIdx {l : Ledger} {i : Nat} {o : Message × UInt64}
    (h : l.outstanding[i]? = some o) :
    l.due = { l with outstanding := l.outstanding.eraseIdx i }.due + o.2.toNat := by
  obtain ⟨hi, rfl⟩ := List.getElem?_eq_some_iff.1 h
  have hperm : (l.outstanding.eraseIdx i ++ [l.outstanding[i]]).Perm l.outstanding :=
    List.perm_append_comm.trans (List.getElem_cons_eraseIdx_perm hi)
  have hsum := hperm.foldl_eq' (f := fun n o => n + o.2.toNat)
    (fun _ _ _ _ n => Nat.add_right_comm n _ _) 0
  rw [List.foldl_append] at hsum
  exact hsum.symm

variable {l : Ledger} {i : Nat} {m : Message} {charge : UInt64}

theorem due_discharge (h : l.outstanding[i]? = some (m, charge)) (size : UInt64) :
    l.due = (l.discharge i size).due + charge.toNat := by
  rw [due_eraseIdx h]
  simp [discharge, h, due]

theorem orderly_discharge_iff (h : l.outstanding[i]? = some (m, charge)) {size : UInt64} :
    (l.discharge i size).Orderly ↔
      l.Orderly ∧ (Deal.released charge size (l.discharge i size).due).Fits := by
  simp [Orderly, discharge, h, due, or_imp, forall_and]

end Ledger

/-! ## The count -/

/-- The gate counts what is due. -/
def Gate.Tallies (g : Gate) (l : Ledger) : Prop := g.queued.toNat = l.due

section Tallies

variable {g : Gate} {l : Ledger} {m : Message} {size charge : UInt64} {i : Nat}

/-- The count stays right over a charge exactly if it does not overflow. -/
theorem tallies_charge_iff (h : g.Tallies l) :
    (g.queue size).Tallies (l.charge m size) ↔ (Deal.charged l.due size).Fits := by
  unfold Gate.Tallies at h ⊢
  have hsum : (g.queue size).queued.toNat = (l.due + size.toNat) % UInt64.size := by
    rw [← h]
    exact UInt64.toNat_add g.queued size
  rw [hsum, Ledger.due_charge]
  exact Nat.mod_eq_iff_lt (by decide)

theorem Gate.toNat_queued_flush (g : Gate) (bytes : UInt64) :
    (g.flush bytes).queued.toNat = g.queued.toNat - bytes.toNat := by
  unfold flush
  dsimp only
  split
  · rename_i hle
    rw [Nat.sub_eq_zero_of_le (UInt64.le_iff_toNat_le.1 hle)]
    rfl
  · rename_i hlt
    rw [UInt64.le_iff_toNat_le] at hlt
    exact UInt64.toNat_sub_of_le _ _ (UInt64.le_iff_toNat_le.2 (by omega))

/-- The count stays right over a release exactly if it takes off what was charged. -/
theorem tallies_discharge_iff (h : g.Tallies l) (ho : l.outstanding[i]? = some (m, charge)) :
    (g.flush size).Tallies (l.discharge i size) ↔
      (Deal.released charge size (l.discharge i size).due).Fits := by
  have hdue : l.due = (l.discharge i size).due + charge.toNat := Ledger.due_discharge ho size
  unfold Gate.Tallies at h ⊢
  rw [g.toNat_queued_flush, h, hdue, Deal.Fits, UInt64.le_iff_toNat_le, ← UInt64.toNat_inj]
  omega

/-- Nothing is queued, and producers may go on. -/
def Gate.Idle (g : Gate) : Prop := g.queued = 0 ∧ g.writable = true

theorem Gate.Idle.settled (h : g.Idle) : g.Settled := by
  simp [Settled, h.1, h.2]

theorem Gate.Idle.withMarks (h : g.Idle) (marks : WaterMark) : (g.withMarks marks).Idle := by
  have hsettled : ({ g with marks } : Gate).flipped? = none :=
    (flipped?_eq_none_iff _).2 (settled (g := { g with marks }) h)
  rw [Gate.withMarks, Gate.settled, hsettled]
  exact h

theorem Gate.Idle.tallies_empty (h : g.Idle) : g.Tallies .empty := by
  rw [Tallies, h.1]
  rfl

/-- When nothing is outstanding, the gate is idle. -/
theorem Gate.Tallies.idle (h : g.Tallies l) (hsettled : g.Settled) (hnone : l.outstanding = []) :
    g.Idle := by
  have hzero : g.queued.toNat = 0 := by
    rw [show g.queued.toNat = l.due from h, Ledger.due, hnone]
    rfl
  refine ⟨UInt64.toNat_inj.1 hzero, ?_⟩
  cases hw : g.writable with
  | true => rfl
  | false =>
    -- A closed gate is above its low mark.
    have hlow := hsettled.2 hw
    omega

end Tallies

/-! ## Building -/

namespace Builder

variable {κ : Type} {b : Builder κ} {c : Config κ}

/-- A built configuration has an idle gate. -/
theorem idle_of_build (h : b.build = .ok c) : c.core.gate.Idle := by
  refine build_keeps (P := fun core => core.gate.Idle) ⟨rfl, rfl⟩ ?_ h
  intro core hidle o v core' hok
  cases Core.stored_of_store hok with
  | connectTimeout | maxMessages | writeSpinCount | autoRead | sizing | estimator => exact hidle
  | highMark | lowMark | marks => exact hidle.withMarks _

end Builder

/-! ## Runs -/

/-- What is found at a moment: the signal may stand, and the count is right if all deals so far have
fitted. -/
structure Moment.Balanced {κ : Type} (m : Moment κ) : Prop where
  settled : m.config.core.gate.Settled
  tallies : m.ledger.Orderly → m.config.core.gate.Tallies m.ledger

namespace Busy

variable {κ : Type} {t : OptionTable}

/-- Clients that count bytes by messages only. -/
def ByMessages (c : Call t) : Prop := ¬ c.CountsBytes

/-- The count has been right whenever client code had its say and all deals had fitted, and is so
now; a deal that did not fit shows in the count, at one of the moments or, if it is allowed to be
`unseen` yet, now. The signal may still have to be looked at. -/
structure Tallied (unseen : Prop) (s : Busy κ t ByMessages) : Prop where
  now : s.ledger.Orderly → s.config.core.gate.Tallies s.ledger
  past : ∀ m ∈ s.moments, m.Balanced
  shown : ¬ s.ledger.Orderly →
    (∃ m ∈ s.moments, ¬ m.config.core.gate.Tallies m.ledger) ∨
      unseen ∧ ¬ s.config.core.gate.Tallies s.ledger

structure Accounted (unseen : Prop) (s : Busy κ t ByMessages) : Prop extends
    Tallied unseen s where
  settled : s.config.core.gate.Settled

variable {run : Runner κ t ByMessages} {s s' : Busy κ t ByMessages} {unseen : Prop}

/-- What is looked at is the count, the ledger and the moments. -/
theorem Tallied.congr (h : Tallied unseen s)
    (hqueued : s'.config.core.gate.queued = s.config.core.gate.queued)
    (hledger : s'.ledger = s.ledger) (hmoments : s'.moments = s.moments) : Tallied unseen s' := by
  obtain ⟨hnow, hpast, hshown⟩ := h
  unfold Gate.Tallies at hnow hshown
  rw [← hqueued, ← hledger] at hnow hshown
  rw [← hmoments] at hpast hshown
  exact ⟨hnow, hpast, hshown⟩

theorem Accounted.congr (h : Accounted unseen s)
    (hgate : s'.config.core.gate = s.config.core.gate)
    (hledger : s'.ledger = s.ledger) (hmoments : s'.moments = s.moments) : Accounted unseen s' :=
  ⟨h.toTallied.congr (congrArg Gate.queued hgate) hledger hmoments, hgate ▸ h.settled⟩

theorem Accounted.weaken (h : Accounted False s) : Accounted unseen s :=
  ⟨⟨h.now, h.past, fun hno => .inl ((h.shown hno).resolve_right And.left)⟩, h.settled⟩

/-- A moment is when a deal is seen. -/
theorem Accounted.mark (h : Accounted unseen s) (o : Occasion) : Accounted False (s.mark o) := by
  refine ⟨⟨h.now, ?_, ?_⟩, h.settled⟩
  · intro m hm
    rcases List.mem_append.1 hm with hm | hm
    · exact h.past m hm
    · rw [List.mem_singleton.1 hm]
      exact ⟨h.settled, h.now⟩
  · intro hno
    left
    rcases h.shown hno with ⟨m, hm, hbad⟩ | ⟨-, hbad⟩
    · exact ⟨m, List.mem_append_left _ hm, hbad⟩
    · exact ⟨⟨o, s.config, s.ledger⟩, List.mem_append_right _ List.mem_cons_self, hbad⟩

/-- A deal that fits leaves the count right, and one that does not is seen in it at once. -/
theorem Accounted.deal (h : Accounted False s) {d : Deal} {g : Gate} {l : Ledger}
    (horderly : l.Orderly ↔ s.ledger.Orderly ∧ d.Fits)
    (htallies : s.config.core.gate.Tallies s.ledger → (g.Tallies l ↔ d.Fits)) :
    Tallied True { s with config := s.config.withGate g, ledger := l } := by
  refine ⟨?_, h.past, ?_⟩
  · intro ho
    obtain ⟨ho, hfits⟩ := horderly.1 ho
    exact (htallies (h.now ho)).2 hfits
  · intro hno
    by_cases ho : s.ledger.Orderly
    · right
      refine ⟨trivial, ?_⟩
      intro hright
      exact hno (horderly.2 ⟨ho, (htallies (h.now ho)).1 hright⟩)
    · exact .inl ((h.shown ho).resolve_right And.left)

section Turn

variable (hrun : ∀ step s, Accounted False s → Accounted True (run step s))

include hrun

theorem Accounted.act (h : Accounted unseen s) (o : Occasion) : Accounted False (act run o s) :=
  act_keeps (fun _ _ hs => hs.congr rfl rfl rfl)
    (fun step s hs => (hrun step s hs).mark .returned) (h.mark o)

/-- A look at the signal leaves the count as it is. -/
theorem Tallied.settle (h : Tallied unseen s) :
    Accounted unseen ((host run).gateHost.settle s) := by
  refine GateHost.settle_restores (fun _ hs => hs.toTallied) ?_ ?_ (fun _ _ hs => hs)
    (fun l v s hs => (Accounted.act hrun hs (.writability l v)).weaken) h
  · intro s hs hrest
    exact ⟨hs, (Gate.flipped?_eq_none_iff _).1 hrest⟩
  · intro s g hs hflip
    have hqueued : g.queued = s.config.core.gate.queued := by
      rw [(Gate.flipped?_frame hflip).1]
      rfl
    exact ⟨hs.congr hqueued rfl rfl, Gate.settled_of_flipped? hflip⟩

theorem Accounted.keeps : (host run).Keeps (Accounted (κ := κ) (t := t) False) where
  setConfig hs hsame := hs.congr hsame.gate rfl rfl
  note _ _ hs := hs
  setEarlier _ _ hs := hs.congr rfl rfl rfl
  check _ _ _ hs := hs.act hrun _
  setAutoRead on _ hs :=
    Host.setAutoRead_keeps (fun _ _ hs => hs.congr rfl rfl rfl) (fun _ _ hs => hs)
      (fun _ _ _ hs => hs.act hrun _) on hs
  setMarks _ _ hs := Tallied.settle hrun (hs.toTallied.congr rfl rfl rfl)
  addWritabilityListener _ _ hs := ⟨hs.toTallied.congr rfl rfl rfl, hs.settled⟩

/-! ### Messages -/

theorem Accounted.charge (h : Accounted False s) (m : Message) (size : UInt64) :
    Accounted True
      ((host run).gateHost.queue size { s with ledger := s.ledger.charge m size }) := by
  have hstore : Tallied True ((host run).gateHost.modify (·.queue size)
      { s with ledger := s.ledger.charge m size }) :=
    h.deal Ledger.orderly_charge_iff tallies_charge_iff
  refine GateHost.queue_restores ?_ (fun s hs => Tallied.settle hrun hs) hstore
  rintro rfl
  exact ⟨hstore.congr (UInt64.add_zero _).symm rfl rfl, h.settled⟩

theorem Accounted.discharge (h : Accounted False s) {i : Nat} {m : Message} {charge : UInt64}
    (hout : s.ledger.outstanding[i]? = some (m, charge)) (size : UInt64) :
    Accounted True
      ((host run).gateHost.flush size { s with ledger := s.ledger.discharge i size }) := by
  have hstore : Tallied True ((host run).gateHost.modify (·.flush size)
      { s with ledger := s.ledger.discharge i size }) :=
    h.deal (Ledger.orderly_discharge_iff hout) fun htallies => tallies_discharge_iff htallies hout
  refine GateHost.flush_restores ?_ (fun s hs => Tallied.settle hrun hs) hstore
  rintro rfl
  have hsame := UInt64.toNat_inj.1 (s.config.core.gate.toNat_queued_flush 0)
  exact ⟨hstore.congr hsame.symm rfl rfl, h.settled⟩

variable [OptionLayer κ]

theorem Accounted.release (h : Accounted False s) (i : Nat) :
    Accounted True (exec run (.release i) s) := by
  unfold exec
  dsimp only
  split
  · exact h.weaken
  · exact h.discharge hrun ‹_› _

end Turn

variable [OptionLayer κ]

theorem perform_accounted (depth : Nat) (step : ClientStep t ByMessages)
    (s : Busy κ t ByMessages) (hs : Accounted False s) :
    Accounted True (perform depth step s) := by
  induction depth generalizing step s with
  | zero => exact (hs.mark .unfinished).weaken
  | succ depth ih =>
    refine exec_leads (fun _ hs => hs.weaken) (Accounted.keeps ih)
      (fun _ hs => hs.act ih .reading) ?_ (fun m _ hs => hs.charge ih m _)
      (fun i _ hs => hs.release ih i) step hs
    intro c s hallowed hc hs
    cases c with
    | addAutoReadListener l => exact hs.weaken.congr rfl rfl rfl
    | _ => exact absurd hallowed hc

/-- Whatever clients do with a built configuration, from outside and from inside callbacks, as long
as they count bytes by messages only: if every deal up to a moment has fitted, the gate counts what
is due at that moment, and once every message is released the queue is empty and producers may go
on. If there is a deal that does not fit, the count is wrong at some moment. -/
theorem runAll_balanced {b : Builder κ} {c : Config κ} (hbuild : b.build = .ok c)
    (agenda : List (Turn t ByMessages)) (steps : List (ClientStep t ByMessages)) :
    let s := runAll steps (start c agenda)
    (∀ m ∈ s.moments, m.ledger.Orderly → m.config.core.gate.Tallies m.ledger ∧
      (m.ledger.outstanding = [] → m.config.core.gate.Idle)) ∧
    (s.ledger.Orderly → s.config.core.gate.Tallies s.ledger ∧
      (s.ledger.outstanding = [] → s.config.core.gate.Idle)) ∧
    (¬ s.ledger.Orderly → ∃ m ∈ s.moments, ¬ m.config.core.gate.Tallies m.ledger) := by
  intro s
  have hidle : c.core.gate.Idle := Builder.idle_of_build hbuild
  have hstart : Accounted False (start c agenda) := by
    refine ⟨⟨fun _ => hidle.tallies_empty, fun _ hm => absurd hm List.not_mem_nil, ?_⟩,
      hidle.settled⟩
    intro hno
    exact absurd (fun _ hd => absurd hd List.not_mem_nil) hno
  have hend : Accounted False s :=
    runAll_keeps (fun depth step s hs => (perform_accounted depth step s hs).mark .returned) steps
      hstart
  refine ⟨?_, ?_, ?_⟩
  · intro m hm ho
    have htallies := (hend.past m hm).tallies ho
    exact ⟨htallies, htallies.idle (hend.past m hm).settled⟩
  · intro ho
    exact ⟨hend.now ho, (hend.now ho).idle hend.settled⟩
  · intro hno
    exact (hend.shown hno).resolve_right And.left

def useEstimator (unknownSize : UInt64) : ClientStep t ByMessages :=
  .call (.set .estimator (.estimator ⟨unknownSize⟩)) id

/-- A message closes the gate, and the listener that is told so reports the message as written
before the call that queued it returns. The estimator is replaced while a text is outstanding, on
whose size all estimators agree. -/
theorem runAll_balanced_reentrant :
    let c : Config Empty := .standard
    let agenda : List (Turn (.serve []) ByMessages) := [⟨none, [.release 1]⟩]
    let s := runAll [.call (.addWritabilityListener 0) id, .send (.text "abc"), useEstimator 5,
      .send (.sharedBytes 70000), .release 0] (start c agenda)
    ({} : Builder Empty).build = .ok c ∧ s.ledger.Orderly ∧ s.ledger.outstanding = [] ∧
      s.moments.map (·.occasion) = [.returned, .returned, .returned, .writability 0 false,
        .writability 0 true, .returned, .returned, .returned] ∧ s.config.core.gate.Idle := by
  intro c agenda s
  have hbuild : ({} : Builder Empty).build = .ok c := rfl
  have ho : s.ledger.Orderly := by decide +kernel
  have hnone : s.ledger.outstanding = [] := by decide +kernel
  exact ⟨hbuild, ho, hnone, by decide +kernel, ((runAll_balanced hbuild agenda _).2.1 ho).2 hnone⟩

/-- The estimator is replaced while a message of unknown length is outstanding: charged with 8 bytes
and released at 5, it leaves 3 bytes queued when nothing is outstanding any more. -/
theorem not_balanced_other :
    let c : Config Empty := .standard
    let s := runAll [.send .other, useEstimator 5, .release 0]
      (start c ([] : List (Turn (.serve []) ByMessages)))
    ({} : Builder Empty).build = .ok c ∧
      s.ledger = ⟨[], [.charged 0 8, .released 8 5 0]⟩ ∧ s.config.core.gate.queued = 3 ∧
      ¬ s.config.core.gate.Tallies s.ledger := by
  intro c s
  have hqueued : s.config.core.gate.queued = 3 := by decide +kernel
  have hledger : s.ledger = ⟨[], [.charged 0 8, .released 8 5 0]⟩ := by decide +kernel
  refine ⟨rfl, hledger, hqueued, ?_⟩
  rw [Gate.Tallies, hqueued, hledger]
  decide

end Busy

end FlowControl
