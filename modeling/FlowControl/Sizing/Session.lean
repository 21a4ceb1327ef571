import FlowControl.Sizing.Script

/-!
# Sizing sessions

A client that works on receive handles, step by step. The steps are defined over any world with
numbered handles, so that the same client can drive the handles of a strategy on its own or the
handle of a channel's configuration; `SizingSession` is the first of the two.

A read pass may run further steps from inside its closure. Those are parts of the step that started
the pass, so a step runs at most as deep as it is large; the depth is the recursion's argument and
`SizingHost.run` supplies it.
-/

set_option autoImplicit false

namespace FlowControl

inductive SizingStep where
  | read (bytes capacity : Nat)
  /-- Report reads that fill the offered buffer, several in a row. -/
  | fill (times : Nat)
  /-- Report reads of the given percentages of the offered buffer. -/
  | percent (shares : List Nat)
  | mayContinue (done bytes : Nat)
  | setLimit (limit : UInt32)
  | reset
  | pass (script : List (ScriptedRead SizingStep))
  /-- Make another handle of the same strategy, and use it from now on. -/
  | another
  | use (i : Nat)
  | describe

inductive SizingOutcome where
  | done
  | absent
  | number (n : Nat)
  | flag (b : Bool)
  | capacities (list : List Nat)
  | passed (report : PassReport)
  | text (s : String)

mutual

/-- How many steps a step contains, itself included. -/
def SizingStep.weight : SizingStep → Nat
  | .pass script => 1 + SizingStep.scriptWeight script
  | .read .. | .fill _ | .percent _ | .mayContinue .. | .setLimit _ | .reset | .another | .use _
  | .describe => 1

def SizingStep.scriptWeight : List (ScriptedRead SizingStep) → Nat
  | [] => 0
  | ⟨before, _⟩ :: rest => SizingStep.listWeight before + SizingStep.scriptWeight rest

def SizingStep.listWeight : List SizingStep → Nat
  | [] => 0
  | step :: rest => step.weight + SizingStep.listWeight rest

end

/-- A world in which a client of receive handles can work: it can also ask for another handle. -/
structure SizingHost (σ : Type) extends HandleHost σ where
  /-- Make another handle, use it, and tell its number; `none` where a world cannot do that. -/
  another : σ → Option Nat × σ
  use : Nat → σ → σ

namespace SizingHost

variable {σ : Type}

/-- Report one read of `bytes capacity` into the offered buffer, and tell what is offered next. -/
def reportShare (h : SizingHost σ) (bytes : Nat → Nat) (s : σ) : Nat × σ :=
  let i := h.current s
  let capacity := (h.handle i s).nextCapacity
  let s := h.report i (bytes capacity) capacity s
  ((h.handle i s).nextCapacity, s)

/-- Report a read for every entry of a list of shares, and tell what was offered after each. -/
def reportShares (h : SizingHost σ) : List (Nat → Nat) → σ → List Nat × σ
  | [], s => ([], s)
  | bytes :: rest, s =>
    let first := h.reportShare bytes s
    let others := h.reportShares rest first.2
    (first.1 :: others.1, others.2)

def perform (h : SizingHost σ) : Nat → SizingStep → σ → SizingOutcome × σ
  | 0, _, s => (.absent, s)
  | depth + 1, step, s =>
    let i := h.current s
    match step with
    | .read bytes capacity => (.done, h.report i bytes capacity s)
    | .fill times =>
      let out := h.reportShares (List.replicate times id) s
      (.capacities out.1, out.2)
    | .percent shares =>
      let out := h.reportShares (shares.map fun p capacity => capacity * p / 100) s
      (.capacities out.1, out.2)
    | .mayContinue done bytes => (.flag ((h.handle i s).shouldContinue done bytes), s)
    | .setLimit limit => (.done, h.modify i (·.withLimit limit) s)
    | .reset => (.done, h.modify i (·.reset) s)
    | .pass script =>
      let run := fun steps s => steps.foldl (fun s step => (h.perform depth step s).2) s
      let out := h.pass (fun _ => true) (ScriptedRead.closure run) i script s
      (.passed out.report, out.world)
    | .another =>
      let out := h.another s
      (match out.1 with | none => .absent | some n => .number n, out.2)
    | .use n => (.done, h.use n s)
    | .describe => (.text (h.handle i s).describe, s)

def run (h : SizingHost σ) (step : SizingStep) (s : σ) : SizingOutcome × σ :=
  h.perform step.weight step s

end SizingHost

/-- The handles that a client has made of one strategy, with what went to the log. -/
structure SizingSession where
  strategy : Strategy
  handles : List RecvHandle
  current : Nat
  notices : List Notice
deriving Repr

namespace SizingSession

def start (strategy : Strategy) : SizingSession :=
  ⟨strategy, [.ofStrategy strategy], 0, []⟩

/-- The handle with number `i`; a number that was never given out stands for a fresh handle. -/
def handleAt (s : SizingSession) (i : Nat) : RecvHandle :=
  s.handles.getD i (.ofStrategy s.strategy)

def host : SizingHost SizingSession where
  current s := s.current
  handle i s := s.handleAt i
  setHandle i handle s := { s with handles := s.handles.set i handle }
  note n s := { s with notices := s.notices ++ [n] }
  another s :=
    let number := s.handles.length
    (some number,
      { s with handles := s.handles ++ [.ofStrategy s.strategy], current := number })
  use i s := { s with current := i }

def step (step : SizingStep) (s : SizingSession) : SizingOutcome × SizingSession :=
  host.run step s

end SizingSession

end FlowControl
