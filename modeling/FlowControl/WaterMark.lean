import FlowControl.Error
import FlowControl.Text.Description

/-!
# Water marks

The pair of thresholds that gives the write signal its hysteresis. The order of the two is part of
the type: whoever holds a pair need not check it again, and the gate relies on it to come to rest
after a single change of its signal. That a gate keeps both marks in one word, so as to replace them
at once, is left out.
-/

set_option autoImplicit false

namespace FlowControl

/-- A low and a high mark, in order. -/
structure WaterMark where
  low : UInt32
  high : UInt32
  low_le_high : low ≤ high
deriving DecidableEq

namespace WaterMark

/-- The marks of a gate that was given none: 32 KiB and 64 KiB. -/
def standard : WaterMark := ⟨32768, 65536, by decide⟩

instance : Inhabited WaterMark := ⟨standard⟩

/-- The pair, if it is in order. -/
def ofPair (low high : UInt32) : Except ConfigError WaterMark :=
  if h : low ≤ high then .ok ⟨low, high, h⟩ else .error (.waterMarkOrder low high)

/-- The pair with the given sides replaced, if the result is in order. -/
def merge (marks : WaterMark) (low? high? : Option UInt32) : Except ConfigError WaterMark :=
  ofPair (low?.getD marks.low) (high?.getD marks.high)

def display (marks : WaterMark) : String :=
  "WriteBufferWaterMark(low: " ++ toString marks.low.toNat ++ ", high: " ++
    toString marks.high.toNat ++ ")"

def describe (marks : WaterMark) : String :=
  Text.record "WriteBufferWaterMark"
    [("low", toString marks.low.toNat), ("high", toString marks.high.toNat)]

theorem ofPair_self (marks : WaterMark) : ofPair marks.low marks.high = .ok marks := by
  simp [ofPair, marks.low_le_high]

theorem ofPair_eq_ok_iff {low high : UInt32} {marks : WaterMark} :
    ofPair low high = .ok marks ↔ marks.low = low ∧ marks.high = high := by
  constructor
  · intro h
    unfold ofPair at h
    split at h
    · cases h; exact ⟨rfl, rfl⟩
    · cases h
  · rintro ⟨rfl, rfl⟩
    exact ofPair_self marks

theorem ofPair_eq_error_iff {low high : UInt32} {e : ConfigError} :
    ofPair low high = .error e ↔ high < low ∧ e = .waterMarkOrder low high := by
  unfold ofPair
  split
  · rename_i h
    simp only [reduceCtorEq, false_iff, not_and]
    intro h'
    exact absurd h' (by simpa using h)
  · rename_i h
    have h' : high < low := by simpa using h
    simp [h', eq_comm]

end WaterMark

end FlowControl
