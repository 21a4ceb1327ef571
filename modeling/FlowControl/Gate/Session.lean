import FlowControl.Gate.Host

/-!
# Gate sessions

A gate together with the clients that use it: a list of steps from outside, and listeners that
react to the signal with further steps from inside their callbacks. What a listener does is written
down as a queue of reactions. The first one waits for a value of the signal; when the listener is
called with that value, the reaction leaves the queue and its steps run at once.

The session keeps a journal. It shows every notice, every call of a listener with the gate as the
listener found it, and every step that a listener took with the gate as that step left it. These
are, with the returns of the outer steps, all the points where client code runs.

A step that a listener takes was waiting in a queue before and is gone from it when it runs, so the
number of steps still waiting bounds how deep calls can nest.
-/

set_option autoImplicit false

namespace FlowControl

/-- What a listener does when it is called with the value `on`. -/
structure Reaction (α : Type) where
  on : Bool
  steps : List α

/-- A listener: the name it goes by, and the reactions it still has in store. -/
structure Listener (α : Type) where
  label : String
  pending : List (Reaction α)

inductive GateStep where
  | call (call : GateCall)
  | addListener (label : String) (reactions : List (Reaction GateStep))

mutual

/-- How many steps a step contains, itself included. -/
def GateStep.weight : GateStep → Nat
  | .call _ => 1
  | .addListener _ reactions => 1 + GateStep.pendingWeight reactions

def GateStep.pendingWeight : List (Reaction GateStep) → Nat
  | [] => 0
  | ⟨_, steps⟩ :: rest => GateStep.listWeight steps + GateStep.pendingWeight rest

def GateStep.listWeight : List GateStep → Nat
  | [] => 0
  | step :: rest => step.weight + GateStep.listWeight rest

end

inductive GateEntry where
  | notice (n : Notice)
  /-- A listener is called, and finds the gate like this. -/
  | called (listener : Nat) (value : Bool) (gate : Gate)
  /-- A listener has taken a step, which left the gate like this. -/
  | did (step : GateStep) (outcome : GateOutcome) (gate : Gate)

structure GateSession where
  gate : Gate
  listeners : List (Listener GateStep)
  journal : List GateEntry

namespace GateSession

/-- How many steps are still waiting in the queues of the listeners. -/
def budget (s : GateSession) : Nat :=
  s.listeners.foldr (fun l n => GateStep.pendingWeight l.pending + n) 0

def write (entry : GateEntry) (s : GateSession) : GateSession :=
  { s with journal := s.journal ++ [entry] }

/-- Take the first reaction of a listener from its queue, if it waits for this value. -/
def takeReaction (listener : Nat) (value : Bool) (s : GateSession) :
    List GateStep × GateSession :=
  match s.listeners[listener]? with
  | some ⟨label, ⟨on, steps⟩ :: rest⟩ =>
    if on = value then
      (steps, { s with listeners := s.listeners.set listener ⟨label, rest⟩ })
    else ([], s)
  | _ => ([], s)

def react (run : GateStep → GateSession → GateOutcome × GateSession) (steps : List GateStep)
    (s : GateSession) : GateSession :=
  steps.foldl (fun s step =>
    let out := run step s
    out.2.write (.did step out.1 out.2.gate)) s

/-- The session as a world that holds a gate, given how listeners run their steps. -/
def host (run : GateStep → GateSession → GateOutcome × GateSession) : GateHost GateSession where
  gate s := s.gate
  setGate gate s := { s with gate }
  note n s := s.write (.notice n)
  call listener value s :=
    let taken := (s.write (.called listener value s.gate)).takeReaction listener value
    react run taken.1 taken.2
  budget s := s.budget

def register (label : String) (reactions : List (Reaction GateStep)) (s : GateSession) :
    GateSession :=
  { s with
    gate := s.gate.addListener s.listeners.length
    listeners := s.listeners ++ [⟨label, reactions⟩] }

/-- Perform a step, with callbacks nested at most `depth` deep. -/
def perform : Nat → GateStep → GateSession → GateOutcome × GateSession
  | 0, _, s => (.done, s)
  | depth + 1, step, s =>
    match step with
    | .call call => (host (perform depth)).perform call s
    | .addListener label reactions => (.done, s.register label reactions)

def run (step : GateStep) (s : GateSession) : GateOutcome × GateSession :=
  perform (step.weight + s.budget) step s

def runAll (steps : List GateStep) (s : GateSession) : GateSession :=
  steps.foldl (fun s step => (run step s).2) s

def start (marks : WaterMark) (listeners : List (Listener GateStep)) : GateSession :=
  listeners.foldl (fun s l => s.register l.label l.pending) ⟨.ofMarks marks, [], []⟩

end GateSession

end FlowControl
