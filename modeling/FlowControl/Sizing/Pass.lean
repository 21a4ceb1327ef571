import FlowControl.Sizing.Handle

/-!
# Read passes

When a channel becomes readable, one pass reads until the source is drained or the limit is
reached. The closure that reads belongs to the client: between two reads it may change the very
handle that the pass uses, or the read limit, or replace the strategy. So a pass is written over a
world that holds numbered handles, and it follows the one it began with.

The pass ends because a further read needs the count of reads so far to be below a 32-bit limit;
no bound on the closure is needed.
-/

set_option autoImplicit false

namespace FlowControl

/-- The kinds of failure that a read can report, besides having nothing to read for now. -/
inductive ReadErrorKind where
  | interrupted
  | timedOut
  | connectionReset
  | unexpectedEof
  | brokenPipe
  | other
deriving DecidableEq, Repr

structure ReadError where
  kind : ReadErrorKind
  message : String
deriving DecidableEq, Repr

/-- The result of one read. Zero bytes mean that the peer has closed its side. -/
inductive ReadResult where
  | bytes (n : UInt32)
  | wouldBlock
  | failed (error : ReadError)
deriving DecidableEq, Repr

def ReadResult.count : ReadResult → Nat
  | .bytes n => n.toNat
  | _ => 0

/-- What a pass that did not fail has done. -/
structure PassOutcome where
  iterations : Nat
  totalBytes : Nat
  endOfStream : Bool
deriving DecidableEq, Repr

/-- The capacities that a pass offered, read by read, and how it ended. -/
structure PassReport where
  offered : List Nat
  result : Except ReadError PassOutcome

/-- A world with numbered receive handles, one of them in use. -/
structure HandleHost (σ : Type) where
  current : σ → Nat
  handle : Nat → σ → RecvHandle
  setHandle : Nat → RecvHandle → σ → σ
  note : Notice → σ → σ

/-- What a client's read closure leaves behind. -/
structure ReadStep (ρ σ : Type) where
  result : ReadResult
  reader : ρ
  world : σ

/-- What is left at the end of a pass. -/
structure PassEnd (ρ σ : Type) where
  report : PassReport
  reader : ρ
  world : σ

namespace HandleHost

variable {σ ρ : Type}

def modify (h : HandleHost σ) (i : Nat) (f : RecvHandle → RecvHandle) (s : σ) : σ :=
  h.setHandle i (f (h.handle i s)) s

def report (h : HandleHost σ) (i : Nat) (bytes capacity : Nat) (s : σ) : σ :=
  let notice? := (h.handle i s).resize? bytes capacity
  let s := h.modify i (·.report bytes capacity) s
  match notice? with
  | none => s
  | some n => h.note n s

/-- Report a read, unless it was empty: an empty read says nothing about the buffer. -/
def reportPositive (h : HandleHost σ) (i : Nat) (bytes capacity : Nat) (s : σ) : σ :=
  if bytes = 0 then s else h.report i bytes capacity s

/-- The pass on handle `i` from read `done + 1` on, after `total` bytes. -/
def passFrom (h : HandleHost σ) (keepGoing : σ → Bool) (read : Nat → ρ → σ → ReadStep ρ σ)
    (i : Nat) (done total : Nat) (r : ρ) (s : σ) : PassEnd ρ σ :=
  let capacity := (h.handle i s).nextCapacity
  let step := read capacity r s
  match step.result with
  | .failed e => ⟨⟨[capacity], .error e⟩, step.reader, step.world⟩
  | result =>
    let bytes := result.count
    let s := h.reportPositive i bytes capacity step.world
    if _hc : (keepGoing s && (h.handle i s).shouldContinue (done + 1) bytes) = true then
      let rest := passFrom h keepGoing read i (done + 1) (total + bytes) step.reader s
      { rest with report := { rest.report with offered := capacity :: rest.report.offered } }
    else
      ⟨⟨[capacity], .ok ⟨done + 1, total + bytes, result = .bytes 0⟩⟩, step.reader, s⟩
termination_by UInt32.size - done
decreasing_by
  have := RecvHandle.lt_of_shouldContinue (Bool.and_eq_true_iff.1 _hc).2
  omega

/-- One pass on handle `i`: forget the last read, then read as long as the switch is on, the limit
is not reached and the buffers come back full. -/
def pass (h : HandleHost σ) (keepGoing : σ → Bool) (read : Nat → ρ → σ → ReadStep ρ σ)
    (i : Nat) (r : ρ) (s : σ) : PassEnd ρ σ :=
  h.passFrom keepGoing read i 0 0 r (h.modify i (·.reset) s)

end HandleHost

end FlowControl
