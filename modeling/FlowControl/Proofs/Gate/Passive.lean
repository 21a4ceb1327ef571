import Mathlib.Data.List.Induction
import FlowControl.Proofs.Gate.Told

/-!
# Listeners that only listen

A listener that takes no step from inside its callback leaves the gate as it finds it. Among such
listeners a call is over after one look at the signal, and the session after it can be written
down: the gate has stored what the call is about and is settled, and the journal has the lines of
one flip, or no new line at all (`GateSession.Passive.run_call`).

`GateSession.Reached` collects the sessions that come about in this way from a fresh gate. What is
said of them elsewhere uses three facts only: their listeners are passive, their gate is settled,
and their listeners are registered in order.
-/

set_option autoImplicit false

namespace FlowControl

/-- A listener that has no reaction in store. -/
def Listener.Passive {α : Type} (l : Listener α) : Prop := l.pending = []

/-- A step that brings no other listeners than passive ones. -/
def GateStep.Passive : GateStep → Prop
  | .call _ => True
  | .addListener _ reactions => reactions = []

namespace Gate

/-- The gate after a call in which nobody acts: what is stored, with a signal that may stand. -/
def after (call : GateCall) (g : Gate) : Gate := ((call.stored? g).getD g).settled

/-- The lines of a flip: the notice, and a call of every listener. -/
def flipLines (g : Gate) : List GateEntry :=
  g.flipEntry :: g.listeners.map fun l => .called l g.writable g

/-- What is written about a gate that had the signal `before`. -/
def lines (before : Bool) (g : Gate) : List GateEntry :=
  if g.writable = before then [] else g.flipLines

theorem settled_of_settled {g : Gate} (h : g.Settled) : g.settled = g := by
  rw [settled, (flipped?_eq_none_iff g).2 h, Option.getD_none]

theorem settled_listeners (g : Gate) : g.settled.listeners = g.listeners := by
  unfold settled
  cases h : g.flipped? with
  | none => rfl
  | some g' => rw [Option.getD_some, (flipped?_frame h).1]

theorem after_of_not_stored {g : Gate} (hg : g.Settled) {call : GateCall}
    (hstore : call.stored? g = none) : g.after call = g := by
  rw [after, hstore, Option.getD_none, settled_of_settled hg]

theorem after_of_stored {g g' : Gate} {call : GateCall} (hstore : call.stored? g = some g') :
    g.after call = g'.settled := by
  rw [after, hstore, Option.getD_some]

/-- A call is over when the signal may stand. -/
theorem settled_after (call : GateCall) (g : Gate) : (g.after call).Settled := settled_settled _

theorem after_listeners (call : GateCall) (g : Gate) : (g.after call).listeners = g.listeners := by
  rw [after, settled_listeners]
  cases h : call.stored? g with
  | none => rfl
  | some g' => exact GateCall.stored?_listeners h

end Gate

namespace GateSession

/-- All listeners are passive. -/
def Passive (s : GateSession) : Prop := ∀ l ∈ s.listeners, l.Passive

section Passive

variable {s : GateSession} {take : GateStep → GateSession → GateOutcome × GateSession}

theorem Passive.takeReaction (hs : s.Passive) (listener : Nat) (value : Bool) :
    s.takeReaction listener value = ([], s) := by
  rcases takeReaction_cases listener value s with hnone | ⟨label, steps, rest, hl, -⟩
  · exact hnone
  · have hempty : ⟨value, steps⟩ :: rest = [] := hs _ (List.mem_of_getElem? hl)
    cases hempty

theorem Passive.call (hs : s.Passive) (listener : Nat) (value : Bool) :
    (host take).call listener value s = s.write (.called listener value s.gate) := by
  have hwrite : (s.write (.called listener value s.gate)).Passive := hs
  simp only [host, hwrite.takeReaction, react, List.foldl_nil]

theorem Passive.foldl_call (hs : s.Passive) (ls : List Nat) (value : Bool) :
    ls.foldl (fun s l => (host take).call l value s) s
      = { s with journal := s.journal ++ ls.map fun l => .called l value s.gate } := by
  induction ls generalizing s with
  | nil => simp
  | cons l ls ih =>
    have hwrite : (s.write (.called l value s.gate)).Passive := hs
    rw [List.foldl_cons, hs.call, ih hwrite]
    simp [write]

theorem Passive.flip (hs : s.Passive) (g : Gate) :
    (host take).flip g s = { s with gate := g, journal := s.journal ++ g.flipLines } := by
  have hflip : (s.flipTo g).Passive := hs
  calc (host take).flip g s
      = g.listeners.foldl (fun s l => (host take).call l g.writable s) (s.flipTo g) := rfl
    _ = { s with gate := g, journal := s.journal ++ g.flipLines } := by
      rw [hflip.foldl_call]
      simp [flipTo, write, Gate.flipLines]

/-- No listener acts, so one look at the signal is enough. -/
theorem Passive.settle (hs : s.Passive) :
    (host take).settle s
      = { s with
          gate := s.gate.settled
          journal := s.journal ++ s.gate.settled.lines s.gate.writable } := by
  have hgate : (host take).gate s = s.gate := rfl
  rw [GateHost.settle, hgate]
  rcases s.gate.settled_cases with ⟨hf, hstays⟩ | ⟨g, hf, hbecomes, hturned⟩
  · rw [hf, hstays, Gate.lines, if_pos rfl, List.append_nil]
  · rw [hf, hbecomes, Gate.lines, if_neg hturned]
    dsimp only
    rw [hs.flip, if_neg]
    exact Nat.lt_irrefl s.budget

theorem run_call_eq (call : GateCall) (s : GateSession) :
    run (.call call) s = (host (perform s.budget)).perform call s := by
  rw [GateSession.run, GateStep.weight, Nat.add_comm]
  rfl

theorem run_addListener_eq (label : String) (reactions : List (Reaction GateStep))
    (s : GateSession) :
    run (.addListener label reactions) s = (.done, s.register label reactions) := by
  rw [GateSession.run, GateStep.weight, Nat.add_assoc, Nat.add_comm]
  rfl

/-- The session after a call in which nobody acts. -/
theorem Passive.run_call (hs : s.Passive) (hrest : s.gate.Settled) (call : GateCall) :
    (GateSession.run (.call call) s).2
      = { s with
          gate := s.gate.after call
          journal := s.journal ++ (s.gate.after call).lines s.gate.writable } := by
  have hgate : (host (perform s.budget)).gate s = s.gate := rfl
  rw [run_call_eq, GateHost.perform_snd, hgate]
  cases hstore : call.stored? s.gate with
  | none =>
    rw [Gate.after_of_not_stored hrest hstore, Gate.lines, if_pos rfl, List.append_nil]
    rfl
  | some g =>
    have hstored : ({ s with gate := g } : GateSession).Passive := hs
    rw [Gate.after_of_stored hstore, ← GateCall.stored?_writable hstore]
    exact hstored.settle

theorem Passive.run (hs : s.Passive) (hrest : s.gate.Settled) {step : GateStep}
    (hstep : step.Passive) : (GateSession.run step s).2.Passive := by
  cases step with
  | call call =>
    rw [hs.run_call hrest]
    exact hs
  | addListener label reactions =>
    rw [run_addListener_eq]
    exact List.forall_mem_append.2 ⟨hs, List.forall_mem_singleton.2 hstep⟩

end Passive

/-! ## Sessions that come about -/

/-- A session that has come about on a fresh gate, with no other clients than passive listeners and
those that take the steps. -/
def Reached (s : GateSession) : Prop :=
  ∃ marks listeners steps, (∀ l ∈ listeners, l.Passive) ∧ (∀ t ∈ steps, t.Passive)
    ∧ runAll steps (start marks listeners) = s

variable {s : GateSession} {step : GateStep} {steps : List GateStep}

theorem runAll_append (before after : List GateStep) (s : GateSession) :
    runAll (before ++ after) s = runAll after (runAll before s) := List.foldl_append

theorem runAll_concat (steps : List GateStep) (step : GateStep) (s : GateSession) :
    runAll (steps ++ [step]) s = (run step (runAll steps s)).2 := runAll_append steps [step] s

theorem Reached.runAll (hs : s.Reached) (hsteps : ∀ t ∈ steps, t.Passive) :
    (runAll steps s).Reached := by
  obtain ⟨marks, listeners, before, hlisteners, hbefore, rfl⟩ := hs
  exact ⟨marks, listeners, before ++ steps, hlisteners, List.forall_mem_append.2 ⟨hbefore, hsteps⟩,
    runAll_append before steps _⟩

theorem Reached.run (hs : s.Reached) (hstep : step.Passive) :
    (GateSession.run step s).2.Reached :=
  hs.runAll (List.forall_mem_singleton.2 hstep)

theorem Reached.settled (hs : s.Reached) : s.gate.Settled := by
  obtain ⟨marks, listeners, steps, -, -, rfl⟩ := hs
  exact (runAll_start_explained marks listeners steps).1

theorem Reached.numbered (hs : s.Reached) : s.Numbered := by
  obtain ⟨marks, listeners, steps, -, -, rfl⟩ := hs
  rw [start_eq_fresh]
  obtain ⟨J, hrun⟩ := runAll_activity steps (fresh marks listeners)
  exact (hrun.numbered rfl).1

theorem Reached.passive (hs : s.Reached) : s.Passive := by
  obtain ⟨marks, listeners, steps, hlisteners, hsteps, rfl⟩ := hs
  induction steps using List.reverseRecOn with
  | nil =>
    rw [start_eq_fresh]
    exact hlisteners
  | append_singleton steps step ih =>
    obtain ⟨hsteps, hstep⟩ := List.forall_mem_append.1 hsteps
    rw [runAll_concat]
    exact (ih hsteps).run (runAll_start_explained marks listeners steps).1 (hstep step (by simp))

/-- The session after a call. -/
theorem Reached.run_call (hs : s.Reached) (call : GateCall) :
    (GateSession.run (.call call) s).2
      = { s with
          gate := s.gate.after call
          journal := s.journal ++ (s.gate.after call).lines s.gate.writable } :=
  hs.passive.run_call hs.settled call

end GateSession

end FlowControl
