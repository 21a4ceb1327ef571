import FlowControl.Gate.Host

/-!
# What a call stores

Six kinds of calls change a gate, each with its own test and its own error. For everything that is
said about the signal they differ in one respect only: what they put into the gate before the
signal is looked at again. `GateCall.stored?` is that gate, and `GateHost.perform_snd` says that a
call is nothing but such a store with a look at the signal after it. Later modules reason about
`stored?` and never about the six calls.
-/

set_option autoImplicit false

namespace FlowControl

/-- The gate that a call puts in place before the signal is looked at again. There is none if the
call is refused, is about zero bytes, or only asks. -/
def GateCall.stored? (call : GateCall) (g : Gate) : Option Gate :=
  match call with
  | .queue n => if n = 0 then none else some (g.queue n)
  | .flush n => if n = 0 then none else some (g.flush n)
  | .setHigh high => remarked (WaterMark.ofPair g.marks.low high)
  | .setLow low => remarked (WaterMark.ofPair low g.marks.high)
  | .setMarks low high => remarked (WaterMark.ofPair low high)
  | .update low? high? => remarked (g.marks.merge low? high?)
  | .describe => none
where
  /-- The gate with new marks, if they are in order. -/
  remarked : Except ConfigError WaterMark → Option Gate
    | .ok marks => some { g with marks }
    | .error _ => none

/-- A call stores a count or marks. The signal is left to the look that follows, and nobody is
registered or forgotten. -/
theorem GateCall.stored?_frame {call : GateCall} {g g' : Gate} (h : call.stored? g = some g') :
    g' = { g with queued := g'.queued, marks := g'.marks } := by
  have hmarks : ∀ {r : Except ConfigError WaterMark}, stored?.remarked g r = some g' →
      g' = { g with queued := g'.queued, marks := g'.marks } := by
    intro r hr
    cases r with
    | ok marks => cases hr; rfl
    | error e => cases hr
  cases call with
  | queue n | flush n =>
    simp only [stored?] at h
    split at h
    · cases h
    · cases h; rfl
  | setHigh high | setLow low | setMarks low high | update low? high? => exact hmarks h
  | describe => cases h

theorem GateCall.stored?_writable {call : GateCall} {g g' : Gate} (h : call.stored? g = some g') :
    g'.writable = g.writable := by rw [stored?_frame h]

theorem GateCall.stored?_listeners {call : GateCall} {g g' : Gate}
    (h : call.stored? g = some g') : g'.listeners = g.listeners := by rw [stored?_frame h]

/-- A flip turns the signal around, for the reason that count and marks give, and changes nothing
else. -/
theorem Gate.flipped?_frame {g g' : Gate} (h : g.flipped? = some g') :
    g' = { g with writable := !g.writable } ∧
      (g'.writable = true → g'.queued.toNat ≤ g'.marks.low.toNat) ∧
      (g'.writable = false → g'.marks.high.toNat < g'.queued.toNat) := by
  unfold flipped? at h
  split at h
  · rename_i hw
    split at h
    · rename_i hlt
      cases h
      exact ⟨by rw [hw]; rfl, nofun, fun _ => hlt⟩
    · cases h
  · rename_i hw
    split at h
    · rename_i hle
      cases h
      exact ⟨by simp [hw], fun _ => hle, nofun⟩
    · cases h

/-- The gate with its signal brought in line with its marks. -/
def Gate.settled (g : Gate) : Gate := g.flipped?.getD g

theorem Gate.settled_frame (g : Gate) :
    g.settled.queued = g.queued ∧ g.settled.marks = g.marks := by
  unfold settled
  cases h : g.flipped? with
  | none => exact ⟨rfl, rfl⟩
  | some g' =>
    rw [Option.getD_some, (flipped?_frame h).1]
    exact ⟨rfl, rfl⟩

/-- A gate is settled as it is, or by a flip, which turns its signal. -/
theorem Gate.settled_cases (g : Gate) :
    (g.flipped? = none ∧ g.settled = g)
      ∨ ∃ g', g.flipped? = some g' ∧ g.settled = g' ∧ g'.writable ≠ g.writable := by
  unfold settled
  cases hf : g.flipped? with
  | none => exact .inl ⟨rfl, rfl⟩
  | some g' =>
    refine .inr ⟨g', rfl, rfl, ?_⟩
    rw [(flipped?_frame hf).1]
    simp

theorem Gate.settled_settled (g : Gate) : g.settled.Settled := by
  rcases g.settled_cases with ⟨hf, hstays⟩ | ⟨g', hf, hbecomes, -⟩
  · rw [hstays]
    exact (flipped?_eq_none_iff g).1 hf
  · rw [hbecomes]
    exact settled_of_flipped? hf

namespace GateHost

variable {σ : Type} (h : GateHost σ)

/-- The world after a call: as it was if nothing is stored, else settled after the store. -/
def afterStore (s : σ) : Option Gate → σ
  | none => s
  | some g => h.settle (h.setGate g s)

theorem setHigh_snd (high : UInt32) (s : σ) :
    (h.setHigh high s).2 = h.afterStore s ((GateCall.setHigh high).stored? (h.gate s)) := by
  by_cases hle : (h.gate s).marks.low ≤ high
  · simp [setHigh, hle, GateCall.stored?, GateCall.stored?.remarked, WaterMark.ofPair, afterStore,
      setMarks, modify]
  · simp [setHigh, hle, GateCall.stored?, GateCall.stored?.remarked, WaterMark.ofPair, afterStore]

theorem setLow_snd (low : UInt32) (s : σ) :
    (h.setLow low s).2 = h.afterStore s ((GateCall.setLow low).stored? (h.gate s)) := by
  by_cases hle : low ≤ (h.gate s).marks.high
  · simp [setLow, hle, GateCall.stored?, GateCall.stored?.remarked, WaterMark.ofPair, afterStore,
      setMarks, modify]
  · simp [setLow, hle, GateCall.stored?, GateCall.stored?.remarked, WaterMark.ofPair, afterStore]

theorem update_snd (low? high? : Option UInt32) (s : σ) :
    (h.update low? high? s).2 =
      h.afterStore s ((GateCall.update low? high?).stored? (h.gate s)) := by
  cases hm : (h.gate s).marks.merge low? high? with
  | ok marks =>
    simp [update, hm, GateCall.stored?, GateCall.stored?.remarked, afterStore, setMarks, modify]
  | error e => simp [update, hm, GateCall.stored?, GateCall.stored?.remarked, afterStore]

/-- The answer to a call says nothing that the world after it depends on. -/
theorem answer_snd (r : Except ConfigError Unit × σ) : (perform.answer r).2 = r.2 := by
  obtain ⟨r, s⟩ := r
  cases r <;> rfl

/-- Every call is a store, and a look at the signal after it. -/
theorem perform_snd (call : GateCall) (s : σ) :
    (h.perform call s).2 = h.afterStore s (call.stored? (h.gate s)) := by
  cases call with
  | queue n =>
    by_cases hn : n = 0 <;> simp [perform, queue, GateCall.stored?, hn, afterStore, modify]
  | flush n =>
    by_cases hn : n = 0 <;> simp [perform, flush, GateCall.stored?, hn, afterStore, modify]
  | setHigh high => rw [perform, answer_snd, setHigh_snd]
  | setLow low => rw [perform, answer_snd, setLow_snd]
  | setMarks low high =>
    cases hm : WaterMark.ofPair low high with
    | ok marks =>
      simp [perform, hm, GateCall.stored?, GateCall.stored?.remarked, afterStore, setMarks, modify]
    | error e => simp [perform, hm, GateCall.stored?, GateCall.stored?.remarked, afterStore]
  | update low? high? =>
    rw [← update_snd]
    cases hu : h.update low? high? s with
    | mk r s' => cases r <;> simp [perform, hu]
  | describe => rfl

end GateHost

end FlowControl
