import FlowControl.Gate.Session
import FlowControl.Proofs.Gate.Calls

/-!
# What happens in a gate session

`GateSession.run` is an interpreter: it counts down a depth to be seen to end, and its `settle`
looks at the signal a second time only if a listener has acted. Neither belongs to the behaviour of
a gate. This module says what a session does by rules that mention no depth and no budget: the gate
looks at its signal until it may stand, a flip is told to every listener that is registered at that
moment, and a listener takes all steps of its reaction before the next one is told.

`perform_follows` is the one induction on the depth. It says that a step of the interpreter is an
activity by these rules, so that the depth never cuts anything off and the second look is never
missing where it is needed. Everything else about sessions follows by induction on the rules.
-/

set_option autoImplicit false

namespace FlowControl

/-- What a client, or the gate on behalf of its clients, is busy with. -/
inductive Task where
  /-- Steps from outside are taken, one after the other. -/
  | run (steps : List GateStep)
  /-- A client takes a step. -/
  | take (step : GateStep)
  /-- The gate looks at its signal until it may stand. -/
  | settle
  /-- The gate tells a value to listeners, one after the other. -/
  | tell (listeners : List Nat) (value : Bool)
  /-- A listener takes the steps of a reaction, one after the other. -/
  | react (steps : List GateStep)

def Gate.flipEntry (g : Gate) : GateEntry :=
  .notice (.writabilityChanged g.writable g.queued g.marks.low g.marks.high)

namespace GateSession

def flipTo (g : Gate) (s : GateSession) : GateSession := { s with gate := g }.write g.flipEntry

/-- A listener is called: it finds the gate as it is, and takes a reaction from its queue. -/
def answerCall (listener : Nat) (value : Bool) (s : GateSession) : List GateStep × GateSession :=
  (s.write (.called listener value s.gate)).takeReaction listener value

end GateSession

open GateSession

/-- A task that is begun in the session `s` writes the lines `J` into the journal and leaves the
session `s'`. -/
inductive Activity : Task → GateSession → List GateEntry → GateSession → Prop where
  | finished {s : GateSession} : Activity (.run []) s [] s
  | run {step : GateStep} {steps : List GateStep} {J K : List GateEntry} {s s' s'' : GateSession} :
      Activity (.take step) s J s' → Activity (.run steps) s' K s'' →
      Activity (.run (step :: steps)) s (J ++ K) s''
  | register {label : String} {reactions : List (Reaction GateStep)} {s : GateSession} :
      Activity (.take (.addListener label reactions)) s [] (s.register label reactions)
  | idle {call : GateCall} {s : GateSession} :
      call.stored? s.gate = none → Activity (.take (.call call)) s [] s
  | store {call : GateCall} {g : Gate} {J : List GateEntry} {s s' : GateSession} :
      call.stored? s.gate = some g → Activity .settle { s with gate := g } J s' →
      Activity (.take (.call call)) s J s'
  | rest {s : GateSession} : s.gate.Settled → Activity .settle s [] s
  | flip {g : Gate} {J K : List GateEntry} {s s' s'' : GateSession} :
      s.gate.flipped? = some g → Activity (.tell g.listeners g.writable) (s.flipTo g) J s' →
      Activity .settle s' K s'' → Activity .settle s (g.flipEntry :: (J ++ K)) s''
  | allTold {value : Bool} {s : GateSession} : Activity (.tell [] value) s [] s
  | tell {l : Nat} {ls : List Nat} {value : Bool} {steps : List GateStep} {J K : List GateEntry}
      {s s₁ s' s'' : GateSession} :
      s.answerCall l value = (steps, s₁) → Activity (.react steps) s₁ J s' →
      Activity (.tell ls value) s' K s'' →
      Activity (.tell (l :: ls) value) s (.called l value s.gate :: (J ++ K)) s''
  | reacted {s : GateSession} : Activity (.react []) s [] s
  | react {step : GateStep} {steps : List GateStep} {outcome : GateOutcome}
      {J K : List GateEntry} {s s' s'' : GateSession} :
      Activity (.take step) s J s' →
      Activity (.react steps) (s'.write (.did step outcome s'.gate)) K s'' →
      Activity (.react (step :: steps)) s (J ++ .did step outcome s'.gate :: K) s''

/-! ## Steps in waiting -/

/-- How many steps a task brings along. -/
def Task.weight : Task → Nat
  | .run steps => GateStep.listWeight steps
  | .take step => step.weight
  | .settle => 0
  | .tell _ _ => 0
  | .react steps => GateStep.listWeight steps

/-- How many steps a task is sure to use up. -/
def Task.cost : Task → Nat
  | .run steps => steps.length
  | .take _ => 1
  | .settle => 0
  | .tell _ _ => 0
  | .react steps => steps.length

theorem GateStep.weight_pos (step : GateStep) : 0 < step.weight := by
  cases step with
  | call call =>
    rw [GateStep.weight]
    exact Nat.one_pos
  | addListener label reactions =>
    rw [GateStep.weight]
    omega

namespace GateSession

@[simp] theorem budget_write (entry : GateEntry) (s : GateSession) :
    (s.write entry).budget = s.budget := rfl

@[simp] theorem budget_flipTo (g : Gate) (s : GateSession) : (s.flipTo g).budget = s.budget := rfl

@[simp] theorem journal_write (entry : GateEntry) (s : GateSession) :
    (s.write entry).journal = s.journal ++ [entry] := rfl

@[simp] theorem journal_flipTo (g : Gate) (s : GateSession) :
    (s.flipTo g).journal = s.journal ++ [g.flipEntry] := rfl

theorem foldr_add_eq {α : Type} (f : α → Nat) (n : Nat) (l : List α) :
    l.foldr (f · + ·) n = l.foldr (f · + ·) 0 + n := by
  induction l with
  | nil => exact (Nat.zero_add n).symm
  | cons x xs ih => rw [List.foldr_cons, List.foldr_cons, ih, Nat.add_assoc]

theorem budget_register (label : String) (reactions : List (Reaction GateStep))
    (s : GateSession) :
    (s.register label reactions).budget = s.budget + GateStep.pendingWeight reactions := by
  simp only [register, budget, List.foldr_append, List.foldr_cons, List.foldr_nil, Nat.add_zero]
  exact foldr_add_eq (fun l => GateStep.pendingWeight l.pending) _ s.listeners

/-- The queue of a listener loses exactly the reaction that is taken from it; the rest of the
session stays. -/
theorem takeReaction_cases (listener : Nat) (value : Bool) (s : GateSession) :
    s.takeReaction listener value = ([], s) ∨
      ∃ label steps rest, s.listeners[listener]? = some ⟨label, ⟨value, steps⟩ :: rest⟩ ∧
        s.takeReaction listener value =
          (steps, { s with listeners := s.listeners.set listener ⟨label, rest⟩ }) := by
  unfold takeReaction
  split
  · rename_i label on steps rest hl
    by_cases hon : on = value
    · subst hon
      exact .inr ⟨label, steps, rest, hl, by simp⟩
    · exact .inl (by simp [hon])
  · exact .inl rfl

theorem foldr_add_set {α : Type} (f : α → Nat) (b : α) :
    ∀ (l : List α) (i : Nat) (a : α), l[i]? = some a →
      (l.set i b).foldr (f · + ·) 0 + f a = l.foldr (f · + ·) 0 + f b
  | [], _, _, h => by simp at h
  | x :: xs, 0, a, h => by
    simp only [List.getElem?_cons_zero, Option.some.injEq] at h
    subst h
    simp only [List.set_cons_zero, List.foldr_cons]
    omega
  | x :: xs, i + 1, a, h => by
    simp only [List.getElem?_cons_succ] at h
    have := foldr_add_set f b xs i a h
    simp only [List.set_cons_succ, List.foldr_cons]
    omega

/-- The steps that a listener takes were waiting in its queue. -/
theorem budget_answerCall {listener : Nat} {value : Bool} {steps : List GateStep}
    {s s₁ : GateSession} (h : s.answerCall listener value = (steps, s₁)) :
    s₁.budget + GateStep.listWeight steps = s.budget := by
  unfold answerCall at h
  rcases takeReaction_cases listener value (s.write (.called listener value s.gate)) with
    hnone | ⟨label, taken, rest, hl, htaken⟩
  · rw [hnone] at h
    cases h
    simp [GateStep.listWeight]
  · rw [htaken] at h
    cases h
    have := foldr_add_set (fun l => GateStep.pendingWeight l.pending) ⟨label, rest⟩ _ _ _ hl
    simp only [GateStep.pendingWeight, write] at this
    simp only [budget, write]
    omega

/-- A listener that is called leaves the gate alone until it takes a step. All that changes is the
journal, and the queue of that listener. -/
theorem answerCall_frame {listener : Nat} {value : Bool} {steps : List GateStep}
    {s s₁ : GateSession} (h : s.answerCall listener value = (steps, s₁)) :
    s₁.gate = s.gate ∧ s₁.journal = s.journal ++ [.called listener value s.gate] ∧
      s₁.listeners.length = s.listeners.length := by
  unfold answerCall at h
  rcases takeReaction_cases listener value (s.write (.called listener value s.gate)) with
    hnone | ⟨_, _, _, _, htaken⟩
  · rw [hnone] at h
    cases h
    exact ⟨rfl, rfl, rfl⟩
  · rw [htaken] at h
    cases h
    exact ⟨rfl, rfl, List.length_set⟩

end GateSession

namespace Activity

/-- Steps in waiting only become fewer, but for those that a registered listener brings along. -/
theorem budget_le {t : Task} {J : List GateEntry} {s s' : GateSession} (h : Activity t s J s') :
    s'.budget + t.cost ≤ s.budget + t.weight := by
  induction h with
  | finished | idle _ | rest _ | allTold | reacted =>
    simp [Task.cost, Task.weight, GateStep.weight]
  | register =>
    simp only [budget_register, Task.cost, Task.weight, GateStep.weight]
    omega
  | store _ _ ih =>
    simp only [Task.cost, Task.weight, GateStep.weight] at ih ⊢
    exact Nat.succ_le_succ ih
  | flip _ _ _ ihtell ihsettle =>
    simp only [Task.cost, Task.weight, budget_flipTo] at ihtell ihsettle ⊢
    omega
  | tell hcall _ _ ihreact ihtell =>
    have := budget_answerCall hcall
    simp only [Task.cost, Task.weight] at ihreact ihtell ⊢
    omega
  | run _ _ ihstep ihrest =>
    simp only [Task.cost, Task.weight, GateStep.listWeight, List.length_cons] at ihstep ihrest ⊢
    omega
  | react _ _ ihstep ihrest =>
    simp only [Task.cost, Task.weight, budget_write, GateStep.listWeight,
      List.length_cons] at ihstep ihrest ⊢
    omega

/-- After a round either a step in waiting is gone, or nobody has touched the gate. -/
theorem tell_budget_lt_or_gate_eq {value : Bool} {ls : List Nat} {J : List GateEntry}
    {s s' : GateSession} (h : Activity (.tell ls value) s J s') :
    s'.budget < s.budget ∨ s'.gate = s.gate := by
  induction ls generalizing s J with
  | nil => cases h; exact .inr rfl
  | cons l ls ih =>
    cases h with
    | @tell _ _ _ steps _ _ _ s₁ mid _ hcall hreact htell =>
      have hle := htell.budget_le
      have hcost := hreact.budget_le
      have hbudget := budget_answerCall hcall
      simp only [Task.cost, Task.weight] at hle hcost
      -- Either the listener takes no step, or it has used one up.
      cases steps with
      | nil =>
        cases hreact
        rcases ih htell with hlt | heq
        · left; omega
        · exact .inr (heq.trans (answerCall_frame hcall).1)
      | cons step steps =>
        left
        simp only [List.length_cons] at hcost
        omega

theorem journal_eq {t : Task} {J : List GateEntry} {s s' : GateSession} (h : Activity t s J s') :
    s'.journal = s.journal ++ J := by
  induction h with
  | finished | register | idle _ | rest _ | allTold | reacted => exact (List.append_nil _).symm
  | store _ _ ih => exact ih
  | run _ _ ihstep ihrest => rw [ihrest, ihstep, List.append_assoc]
  | flip _ _ _ ihtell ihsettle =>
    rw [ihsettle, ihtell, journal_flipTo, List.append_assoc, List.append_assoc,
      List.singleton_append]
  | tell hcall _ _ ihreact ihtell =>
    rw [ihtell, ihreact, (answerCall_frame hcall).2.1, List.append_assoc, List.append_assoc,
      List.singleton_append]
  | react _ _ ihstep ihrest =>
    rw [ihrest, journal_write, ihstep, List.append_assoc, List.append_assoc, List.singleton_append]

end Activity

/-! ## The interpreter follows the rules -/

section Interpreter

variable {run : GateStep → GateSession → GateOutcome × GateSession} {bound : Nat}

/-- Within `bound`, the steps that `run` performs are activities. -/
def Follows (run : GateStep → GateSession → GateOutcome × GateSession) (bound : Nat) : Prop :=
  ∀ step s, step.weight + s.budget ≤ bound → ∃ J, Activity (.take step) s J (run step s).2

theorem Follows.react (hrun : Follows run bound) :
    ∀ (steps : List GateStep) (s : GateSession), GateStep.listWeight steps + s.budget ≤ bound →
      ∃ J, Activity (.react steps) s J (GateSession.react run steps s)
  | [], _, _ => ⟨[], .reacted⟩
  | step :: steps, s, hb => by
    simp only [GateStep.listWeight] at hb
    obtain ⟨J, hstep⟩ := hrun step s (by omega)
    have hle := hstep.budget_le
    simp only [Task.cost, Task.weight] at hle
    obtain ⟨K, hsteps⟩ := hrun.react steps
      ((run step s).2.write (.did step (run step s).1 (run step s).2.gate))
      (by rw [budget_write]; omega)
    exact ⟨_, .react hstep hsteps⟩

theorem Follows.tell (hrun : Follows run bound) (value : Bool) :
    ∀ (ls : List Nat) (s : GateSession), s.budget ≤ bound →
      ∃ J, Activity (.tell ls value) s J (ls.foldl (fun s l => (host run).call l value s) s)
  | [], _, _ => ⟨[], .allTold⟩
  | l :: ls, s, hb => by
    have hcall : s.answerCall l value = ((s.answerCall l value).1, (s.answerCall l value).2) := rfl
    have hbudget := budget_answerCall hcall
    obtain ⟨J, hreact⟩ := hrun.react (s.answerCall l value).1 (s.answerCall l value).2 (by omega)
    have hle := hreact.budget_le
    simp only [Task.cost, Task.weight] at hle
    obtain ⟨K, htell⟩ := hrun.tell value ls
      (GateSession.react run (s.answerCall l value).1 (s.answerCall l value).2) (by omega)
    exact ⟨_, .tell hcall hreact htell⟩

theorem Follows.settle (hrun : Follows run bound) (s : GateSession) (hb : s.budget ≤ bound) :
    ∃ J, Activity .settle s J ((host run).settle s) := by
  -- Each further look comes after a step in waiting was used up.
  induction hn : s.budget using Nat.strongRecOn generalizing s with
  | ind n ih =>
    subst hn
    rw [GateHost.settle]
    cases hf : ((host run).gate s).flipped? with
    | none => exact ⟨[], .rest ((Gate.flipped?_eq_none_iff _).1 hf)⟩
    | some g =>
      obtain ⟨J, htell⟩ : ∃ J, Activity (.tell g.listeners g.writable) (s.flipTo g) J
          ((host run).flip g s) := hrun.tell g.writable g.listeners (s.flipTo g) hb
      have hle := htell.budget_le
      simp only [Task.cost, Task.weight, budget_flipTo] at hle
      dsimp only
      split
      case isTrue hlt =>
        obtain ⟨K, hsettle⟩ := ih _ hlt _ (Nat.le_trans hle hb) rfl
        exact ⟨_, .flip hf htell hsettle⟩
      case isFalse hge =>
        -- No listener has acted in the round, so the flip has settled the gate.
        have hsettled : ((host run).flip g s).gate.Settled := by
          rcases htell.tell_budget_lt_or_gate_eq with hlt | heq
          · exact absurd hlt hge
          · rw [heq]
            exact Gate.settled_of_flipped? hf
        exact ⟨_, .flip hf htell (.rest hsettled)⟩

end Interpreter

namespace GateSession

theorem perform_follows (depth : Nat) : Follows (perform depth) depth := by
  induction depth with
  | zero =>
    -- A step weighs something, so no step fits.
    intro step s hb
    have := step.weight_pos
    omega
  | succ depth ih =>
    intro step s hb
    cases step with
    | addListener label reactions => exact ⟨[], .register⟩
    | call call =>
      simp only [GateStep.weight] at hb
      show ∃ J, Activity _ s J ((host (perform depth)).perform call s).2
      rw [GateHost.perform_snd]
      cases hs : call.stored? ((host (perform depth)).gate s) with
      | none => exact ⟨[], .idle hs⟩
      | some g =>
        have hle : GateSession.budget { s with gate := g } ≤ depth := by
          show s.budget ≤ depth
          omega
        obtain ⟨J, hsettle⟩ := ih.settle { s with gate := g } hle
        exact ⟨J, .store hs hsettle⟩

/-- Steps from outside are an activity, whatever the listeners have in store. -/
theorem runAll_activity (steps : List GateStep) (s : GateSession) :
    ∃ J, Activity (.run steps) s J (runAll steps s) := by
  induction steps generalizing s with
  | nil => exact ⟨[], .finished⟩
  | cons step steps ih =>
    obtain ⟨J, hstep⟩ := perform_follows (step.weight + s.budget) step s (Nat.le_refl _)
    obtain ⟨K, hsteps⟩ := ih (run step s).2
    exact ⟨J ++ K, .run hstep hsteps⟩

end GateSession

end FlowControl
