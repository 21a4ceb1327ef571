import FlowControl.Proofs.Gate.Activity

/-!
# What clients find at the gate

Client code runs when a step has returned, to its listener or to the outside, and when a listener is
called. At all these moments the marks are in order and the signal is one that the rule lets stand,
although the gate may be in the middle of telling a flip to other listeners. A flip is made only
when count and marks demand it.

A script says what a listener does at each of its calls, so every finite use of a gate, however its
listeners decide, is the run of some script: the one that writes down what they did.

The journal has a line for every one of these moments and for every flip. `Explains` reads it from
left to right with the signal in hand: a flip turns it around, and every client finds it as the
last flip has left it. So there is no flip that the journal does not show.
-/

set_option autoImplicit false

namespace FlowControl

/-- What every client finds: marks in order, and a signal that the rule lets stand. -/
def Gate.AtRest (g : Gate) : Prop := g.marks.low ≤ g.marks.high ∧ g.Settled

theorem Gate.Settled.atRest {g : Gate} (h : g.Settled) : g.AtRest := ⟨g.marks.low_le_high, h⟩

/-- The journal leads from the signal `w` to the signal `w'`: it has every flip in between, each
with its reason, and the clients in between find the gate at rest, with the signal of that
moment. -/
inductive Explains : Bool → List GateEntry → Bool → Prop where
  | nil {w : Bool} : Explains w [] w
  | flip {w v w' : Bool} {queued : UInt64} {low high : UInt32} {journal : List GateEntry} :
      w = !v → (v = true → queued.toNat ≤ low.toNat) → (v = false → high.toNat < queued.toNat) →
      Explains v journal w' →
      Explains w (.notice (.writabilityChanged v queued low high) :: journal) w'
  | called {w w' v : Bool} {l : Nat} {g : Gate} {journal : List GateEntry} :
      g.AtRest → g.writable = w → Explains w journal w' → Explains w (.called l v g :: journal) w'
  | did {w w' : Bool} {step : GateStep} {outcome : GateOutcome} {g : Gate}
      {journal : List GateEntry} :
      g.AtRest → g.writable = w → Explains w journal w' →
      Explains w (.did step outcome g :: journal) w'

namespace Explains

variable {w w' w'' : Bool} {J K : List GateEntry}

theorem append (h : Explains w J w') (h' : Explains w' K w'') : Explains w (J ++ K) w'' := by
  induction h with
  | nil => exact h'
  | flip hw hup hdown _ ih => exact .flip hw hup hdown (ih h')
  | called hg hw _ ih => exact .called hg hw (ih h')
  | did hg hw _ ih => exact .did hg hw (ih h')

theorem atRest_of_called (h : Explains w J w') {l : Nat} {v : Bool} {g : Gate}
    (hmem : .called l v g ∈ J) : g.AtRest := by
  induction h with
  | nil => cases hmem
  | flip _ _ _ _ ih | did _ _ _ ih =>
    cases hmem with
    | tail _ hmem => exact ih hmem
  | called hg _ _ ih =>
    cases hmem with
    | head => exact hg
    | tail _ hmem => exact ih hmem

theorem atRest_of_did (h : Explains w J w') {step : GateStep} {outcome : GateOutcome} {g : Gate}
    (hmem : .did step outcome g ∈ J) : g.AtRest := by
  induction h with
  | nil => cases hmem
  | flip _ _ _ _ ih | called _ _ _ ih =>
    cases hmem with
    | tail _ hmem => exact ih hmem
  | did hg _ _ ih =>
    cases hmem with
    | head => exact hg
    | tail _ hmem => exact ih hmem

theorem reason_of_flip (h : Explains w J w') {v : Bool} {queued : UInt64} {low high : UInt32}
    (hmem : .notice (.writabilityChanged v queued low high) ∈ J) :
    (v = true → queued.toNat ≤ low.toNat) ∧ (v = false → high.toNat < queued.toNat) := by
  induction h with
  | nil => cases hmem
  | called _ _ _ ih | did _ _ _ ih =>
    cases hmem with
    | tail _ hmem => exact ih hmem
  | flip _ hup hdown _ ih =>
    cases hmem with
    | head => exact ⟨hup, hdown⟩
    | tail _ hmem => exact ih hmem

end Explains

/-! ## Activities -/

/-- Whatever clients do between two moments, the gate is at rest again afterwards and the journal
tells how its signal got there. Only a look at the signal may begin with a gate that is not
settled: that is what it is for. -/
theorem Activity.explained {t : Task} {J : List GateEntry} {s s' : GateSession}
    (h : Activity t s J s') (hs : t = .settle ∨ s.gate.Settled) :
    s'.gate.Settled ∧ Explains s.gate.writable J s'.gate.writable := by
  -- Every task but a look at the signal begins with a settled gate, and so do all its parts.
  induction h with
  | finished | idle _ | allTold | reacted => exact ⟨by simpa using hs, .nil⟩
  | register =>
    refine ⟨?_, .nil⟩
    simpa [GateSession.register, Gate.addListener, Gate.Settled] using hs
  | rest hsettled => exact ⟨hsettled, .nil⟩
  | store hstore _ ih =>
    obtain ⟨hsettled, hexp⟩ := ih (.inl rfl)
    rw [GateCall.stored?_writable hstore] at hexp
    exact ⟨hsettled, hexp⟩
  | run _ _ ihstep ihrest =>
    obtain ⟨hmid, hexp⟩ := ihstep (.inr (by simpa using hs))
    obtain ⟨hsettled, hexp'⟩ := ihrest (.inr hmid)
    exact ⟨hsettled, hexp.append hexp'⟩
  | @flip g _ _ s _ _ hf _ _ ihtell ihsettle =>
    obtain ⟨-, hexp⟩ := ihtell (.inr (Gate.settled_of_flipped? hf))
    obtain ⟨hsettled, hexp'⟩ := ihsettle (.inl rfl)
    obtain ⟨hg, hup, hdown⟩ := Gate.flipped?_frame hf
    have hw : s.gate.writable = !g.writable := by rw [hg, Bool.not_not]
    exact ⟨hsettled, .flip hw hup hdown (hexp.append hexp')⟩
  | @tell _ _ _ _ _ _ s _ _ _ hcall _ _ ihreact ihtell =>
    obtain ⟨hgate, -⟩ := GateSession.answerCall_frame hcall
    have hrest : s.gate.Settled := by simpa using hs
    obtain ⟨hmid, hexp⟩ := ihreact (.inr (by rw [hgate]; exact hrest))
    obtain ⟨hsettled, hexp'⟩ := ihtell (.inr hmid)
    rw [hgate] at hexp
    exact ⟨hsettled, .called hrest.atRest rfl (hexp.append hexp')⟩
  | react _ _ ihstep ihrest =>
    obtain ⟨hmid, hexp⟩ := ihstep (.inr (by simpa using hs))
    obtain ⟨hsettled, hexp'⟩ := ihrest (.inr hmid)
    exact ⟨hsettled, hexp.append (.did hmid.atRest rfl hexp')⟩

/-! ## Runs -/

namespace GateSession

/-- A session about a fresh gate with these listeners, to which nothing has happened yet. -/
def fresh (marks : WaterMark) (listeners : List (Listener GateStep)) : GateSession :=
  ⟨{ Gate.ofMarks marks with listeners := List.range listeners.length }, listeners, []⟩

theorem start_eq_fresh (marks : WaterMark) (listeners : List (Listener GateStep)) :
    start marks listeners = fresh marks listeners := by
  have hfold : ∀ ls done : List (Listener GateStep),
      ls.foldl (fun s l => s.register l.label l.pending) (fresh marks done) =
        fresh marks (done ++ ls) := by
    intro ls
    induction ls with
    | nil => intro done; rw [List.append_nil]; rfl
    | cons l ls ih =>
      intro done
      have hnext : (fresh marks done).register l.label l.pending = fresh marks (done ++ [l]) := by
        simp [register, fresh, Gate.addListener, List.range_succ]
      rw [List.foldl_cons, hnext, ih, List.append_assoc, List.singleton_append]
  exact hfold listeners []

/-- A run on a fresh gate is settled at its end, and its journal explains the signal. -/
theorem runAll_start_explained (marks : WaterMark) (listeners : List (Listener GateStep))
    (steps : List GateStep) :
    (runAll steps (start marks listeners)).gate.Settled ∧
      Explains true (runAll steps (start marks listeners)).journal
        (runAll steps (start marks listeners)).gate.writable := by
  rw [start_eq_fresh]
  obtain ⟨J, hrun⟩ := runAll_activity steps (fresh marks listeners)
  have hjournal : (runAll steps (fresh marks listeners)).journal = J := hrun.journal_eq
  rw [hjournal]
  exact hrun.explained (.inr (Gate.settled_ofMarks marks))

/-- However a fresh gate is used, by steps from outside and by listeners that use it again from
inside their callbacks: the gate is at rest when the last step has returned, when any step of a
listener has returned, and when any listener is called. It closes only above the high mark and
opens only at the low mark or below, and its signal changes in no other way. -/
theorem runAll_atRest (marks : WaterMark) (listeners : List (Listener GateStep))
    (steps : List GateStep) :
    let s := runAll steps (start marks listeners)
    s.gate.AtRest ∧
      (∀ l v g, .called l v g ∈ s.journal → g.AtRest) ∧
      (∀ step outcome g, .did step outcome g ∈ s.journal → g.AtRest) ∧
      (∀ queued low high, .notice (.writabilityChanged false queued low high) ∈ s.journal →
        high.toNat < queued.toNat) ∧
      (∀ queued low high, .notice (.writabilityChanged true queued low high) ∈ s.journal →
        queued.toNat ≤ low.toNat) ∧
      Explains true s.journal s.gate.writable := by
  intro s
  obtain ⟨hsettled, hexp⟩ := runAll_start_explained marks listeners steps
  exact ⟨hsettled.atRest, fun _ _ _ => hexp.atRest_of_called, fun _ _ _ => hexp.atRest_of_did,
    fun _ _ _ hmem => (hexp.reason_of_flip hmem).2 rfl,
    fun _ _ _ hmem => (hexp.reason_of_flip hmem).1 rfl, hexp⟩

end GateSession

end FlowControl
