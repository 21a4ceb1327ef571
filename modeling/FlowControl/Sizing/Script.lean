import FlowControl.Sizing.Pass

/-!
# Scripted reads

A client's read closure, written down: for each read, what the client does first and what the read
then returns. A script that is used up has nothing to read for now. The results may be relative to
the capacity offered, since that is what a closure knows.
-/

set_option autoImplicit false

namespace FlowControl

/-- What a scripted read returns, given the capacity that was offered to it. -/
inductive ReadAnswer where
  | bytes (n : UInt32)
  /-- As much as the buffer holds. -/
  | fill
  /-- Half of what the buffer holds, rounded down. -/
  | half
  /-- One byte less than the buffer holds. -/
  | less
  | wouldBlock
  | failed (error : ReadError)
deriving DecidableEq, Repr

def ReadAnswer.result (capacity : Nat) : ReadAnswer → ReadResult
  | .bytes n => .bytes n
  | .fill => .bytes capacity.toUInt32
  | .half => .bytes (capacity / 2).toUInt32
  | .less => .bytes (capacity - 1).toUInt32
  | .wouldBlock => .wouldBlock
  | .failed e => .failed e

/-- One read of a script: steps that the closure runs, then its answer. -/
structure ScriptedRead (α : Type) where
  before : List α
  answer : ReadAnswer

/-- The closure that follows a script, given how to run the steps of one read. -/
def ScriptedRead.closure {α σ : Type} (run : List α → σ → σ) (capacity : Nat) :
    List (ScriptedRead α) → σ → ReadStep (List (ScriptedRead α)) σ
  | [], s => ⟨.wouldBlock, [], s⟩
  | read :: rest, s => ⟨read.answer.result capacity, rest, run read.before s⟩

end FlowControl
