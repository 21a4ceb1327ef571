import FlowControl.Proofs.Config.Accounting
import FlowControl.Proofs.Gate.Pressure

/-!
# Messages under pressure

A message is queued as the bytes that the estimator makes of it, and an estimator may make any
number of bytes of a message whose length it does not know. So whether a message keeps the pressure
on producers depends on the estimator in force. It is decided as for bytes that are queued as they
are: by whether the count and the size of the message fit into a word together
(`Quiet.queue_effect`).

What this asks of a configuration is that its gate is settled whenever a message can be queued,
which is so whatever calls have been made before (`Quiet.Reached.settled`).
-/

set_option autoImplicit false

namespace FlowControl

namespace Quiet

variable {κ : Type} {t : OptionTable} {verdict : Nat → Value → Option String} {s : Quiet κ}

/-! ## Calls of the gate -/

/-- The calls of listeners about a gate that had the signal `before`. -/
def rounds (before : Bool) (gate : Gate) : List QuietCall :=
  if gate.writable = before then [] else round gate

theorem settle_calls (s : Quiet κ) :
    ((host verdict).gateHost.settle s).calls
      = s.calls ++ rounds s.config.core.gate.writable s.config.core.gate.settled := by
  rw [settle_eq]
  rcases s.config.core.gate.settled_cases with ⟨hf, hstays⟩ | ⟨g, hf, hbecomes, hturned⟩
  · rw [hf, hstays, rounds, if_pos rfl, List.append_nil]
  · rw [hf, hbecomes, rounds, if_neg hturned, host_eq_hostOf]
    dsimp only
    rw [flip_eq]

/-- A call of the gate among quiet clients: what it does to the configuration, and who is called. -/
theorem perform_gate (hg : s.config.core.gate.Settled) (call : GateCall) :
    let s' := ((host verdict).gateHost.perform call s).2
    s'.config = s.config.withGate (s.config.core.gate.after call)
      ∧ s'.calls = s.calls
        ++ rounds s.config.core.gate.writable (s.config.core.gate.after call) := by
  have hgate : (host verdict).gateHost.gate s = s.config.core.gate := rfl
  rw [GateHost.perform_snd, hgate]
  cases hstore : call.stored? s.config.core.gate with
  | none =>
    rw [Gate.after_of_not_stored hg hstore, rounds, if_pos rfl, List.append_nil]
    exact ⟨rfl, rfl⟩
  | some g =>
    rw [Gate.after_of_stored hstore, ← GateCall.stored?_writable hstore]
    exact ⟨settle_config verdict _, settle_calls _⟩

/-! ## Configurations that come about -/

/-- A configuration among quiet clients that has come about from a built one. -/
def Reached [OptionLayer κ] (t : OptionTable) (verdict : Nat → Value → Option String)
    (s : Quiet κ) : Prop :=
  ∃ (b : Builder κ) (c : Config κ) (calls : List (Call t)),
    b.build = .ok c ∧ (host verdict).performAll calls (ofConfig c) = s

theorem keeps_settled : (host (κ := κ) verdict).Keeps fun s => s.config.core.gate.Settled where
  setConfig hs hsame := hsame.gate ▸ hs
  note _ _ hs := hs
  setEarlier _ _ hs := hs
  check _ _ _ hs := hs
  setAutoRead on s hs := by
    rw [setAutoRead_config]
    exact hs
  setMarks marks s _ := by
    rw [setMarks_config]
    exact Gate.settled_settled _
  addWritabilityListener _ _ hs := hs

variable [OptionLayer κ]

theorem perform_settled (hs : s.config.core.gate.Settled) (call : Call t) :
    ((host verdict).perform call s).config.core.gate.Settled := by
  by_cases hroutine : call.Routine
  · exact keeps_settled.perform hs hroutine
  · have hgate : ∀ call, ((host verdict).gateHost.perform call s).2.config.core.gate.Settled := by
      intro call
      rw [(perform_gate hs call).1]
      exact Gate.settled_after call _
    exact Host.perform_of_not_routine (P := fun s : Quiet κ => s.config.core.gate.Settled)
      hroutine hgate fun _ _ => hs

theorem Reached.settled (h : s.Reached t verdict) : s.config.core.gate.Settled := by
  obtain ⟨b, c, calls, hbuild, rfl⟩ := h
  induction calls using List.reverseRecOn with
  | nil => exact (Builder.idle_of_build hbuild).settled
  | append_singleton calls call ih =>
    rw [Host.performAll, List.foldl_concat]
    exact perform_settled ih call

/-! ## Messages -/

/-- What listeners of the signal are told, call by call. -/
def heardIn (calls : List QuietCall) : List Bool :=
  calls.filterMap fun
    | .writability _ v => some v
    | .autoRead _ _ => none

theorem heardIn_rounds (before : Bool) (g : Gate) : heardIn (rounds before g) = g.tells before := by
  unfold rounds Gate.tells
  split
  · rfl
  · simp [heardIn, round]

/-- In every state of a gate among passive listeners, and in every state of a configuration among
quiet clients, queueing keeps the pressure on producers exactly if the count and the bytes fit into
a word together, be they queued as they are or as the size of a message. A closed gate opens exactly
if they do not fit and the word holds no more than the low mark in the end, and then every listener
is told that it is open. -/
theorem queue_effect (t : OptionTable) (verdict : Nat → Value → Option String) :
    (∀ s : GateSession, s.Reached → ∀ n : UInt64,
      let s' := (GateSession.run (.call (.queue n)) s).2
      s.gate.Queueing n s'.gate (GateSession.heardIn (s'.journal.drop s.journal.length)))
    ∧ ∀ s : Quiet κ, s.Reached t verdict → ∀ m : Message,
      let out := (host verdict).queueMessage m s
      out.1 = s.config.core.estimator.size m
        ∧ s.config.core.gate.Queueing out.1 out.2.config.core.gate
          (heardIn (out.2.calls.drop s.calls.length)) := by
  constructor
  · intro s hs n
    exact hs.queueing n
  · intro s hs m out
    refine ⟨rfl, ?_⟩
    obtain ⟨hconfig, hcalls⟩ : out.2.config = _ ∧ out.2.calls = _ :=
      perform_gate hs.settled (.queue out.1)
    rw [hconfig, hcalls, List.drop_left, heardIn_rounds]
    exact hs.settled.queueing out.1

/-- All but one of the bytes that a word can count are queued at once, or a message that is taken
for 70000 bytes: either closes the gate, and nobody hears anything else. -/
theorem queue_effect_closed :
    let judge : Nat → Value → Option String := fun _ _ => none
    let s := GateSession.start .standard [⟨"first", []⟩]
    let s' := (GateSession.run (.call (.queue (0 - 1))) s).2
    let c : Quiet Empty := (host judge).performAll (t := .serve [])
      [.addWritabilityListener 0, .set .estimator (.estimator ⟨70000⟩)] (ofConfig .standard)
    let out := (host judge).queueMessage .other c
    s.Reached ∧ c.Reached (.serve []) judge
      ∧ s.gate.KeepsPressure s'.gate [false] ∧ s'.gate.writable = false
      ∧ out.1 = 70000 ∧ c.config.core.gate.KeepsPressure out.2.config.core.gate [false] := by
  intro judge s s' c out
  have hs : s.Reached :=
    ⟨.standard, [⟨"first", []⟩], [], by simp [Listener.Passive], by simp, rfl⟩
  have hc : c.Reached (.serve []) judge := ⟨{}, .standard, _, rfl, rfl⟩
  obtain ⟨hgate, hmessage⟩ := queue_effect (κ := Empty) (.serve []) judge
  obtain ⟨hsize, hqueueing⟩ := hmessage c hc .other
  have hheard : GateSession.heardIn (s'.journal.drop s.journal.length) = [false] := by
    decide +kernel
  have hheard' : heardIn (out.2.calls.drop c.calls.length) = [false] := by decide +kernel
  refine ⟨hs, hc, ?_, by decide +kernel, hsize, ?_⟩
  · exact hheard ▸ (hgate s hs (0 - 1)).keeps_iff.2 (by decide +kernel)
  · exact hheard' ▸ hqueueing.keeps_iff.2 (by decide +kernel)

/-- An estimator takes each message for half of what the word can count. The first one closes the
gate; with the second nothing is left of the count, and the listener is told that the gate is
open. -/
theorem not_keepsPressure_other :
    let judge : Nat → Value → Option String := fun _ _ => none
    let c : Quiet Empty := (host judge).performAll (t := .serve [])
      [.addWritabilityListener 0, .set .estimator (.estimator ⟨9223372036854775808⟩),
        .queueMessage .other] (ofConfig .standard)
    let out := (host judge).queueMessage .other c
    let heard := heardIn (out.2.calls.drop c.calls.length)
    c.Reached (.serve []) judge
      ∧ c.config.core.gate.queued = 9223372036854775808 ∧ c.config.core.gate.writable = false
      ∧ out.2.config.core.gate.queued = 0 ∧ out.2.config.core.gate.writable = true
      ∧ heard = [true] ∧ ¬ c.config.core.gate.KeepsPressure out.2.config.core.gate heard := by
  intro judge c out heard
  have hheard : heard = [true] := by decide +kernel
  refine ⟨⟨{}, .standard, _, rfl, rfl⟩, by decide +kernel, by decide +kernel, by decide +kernel,
    by decide +kernel, hheard, fun hkept => ?_⟩
  exact hkept.not_told (hheard ▸ List.mem_singleton.2 rfl)

end Quiet

end FlowControl
