import FlowControl.Proofs.Gate.Hysteresis

/-!
# How much is left

A gate tells a producer how many bytes close it, and a writer how many bytes open it. Both numbers
are differences of the count and a mark that stop at zero, taken without a look at the history. They
are right because the gate is settled whenever somebody can ask: an open gate is not above its high
mark and a closed one is above its low mark, so the difference that matters does not stop short.

The first number is about counts that stay in their word. A queue beyond that wraps around, and may
leave the gate open however much was queued.
-/

set_option autoImplicit false

namespace FlowControl

namespace Gate

variable {g : Gate}

theorem bytesBeforeUnwritable_of_writable (hw : g.writable = true) :
    g.bytesBeforeUnwritable = g.marks.high.toNat + 1 - g.queued.toNat := if_pos hw

theorem bytesBeforeWritable_of_not_writable (hw : g.writable = false) :
    g.bytesBeforeWritable = g.queued.toNat - g.marks.low.toNat := by
  rw [bytesBeforeWritable, hw, if_neg Bool.false_ne_true]

theorem Settled.bytesBeforeUnwritable_pos (hg : g.Settled) (hw : g.writable = true) :
    1 ≤ g.bytesBeforeUnwritable := by
  have hbelow := hg.1 hw
  rw [bytesBeforeUnwritable_of_writable hw]
  omega

theorem Settled.bytesBeforeWritable_pos (hg : g.Settled) (hw : g.writable = false) :
    1 ≤ g.bytesBeforeWritable := by
  have habove := hg.2 hw
  rw [bytesBeforeWritable_of_not_writable hw]
  omega

/-- There is something left to queue or something left to write, and never both. -/
theorem Settled.bytesBefore_ne_zero_iff (hg : g.Settled) :
    g.bytesBeforeUnwritable ≠ 0 ↔ g.bytesBeforeWritable = 0 := by
  cases hw : g.writable with
  | true =>
    have hpos := hg.bytesBeforeUnwritable_pos hw
    have hzero : g.bytesBeforeWritable = 0 := if_pos hw
    omega
  | false =>
    have hpos := hg.bytesBeforeWritable_pos hw
    have hzero : g.bytesBeforeUnwritable = 0 := by
      rw [bytesBeforeUnwritable, hw, if_neg Bool.false_ne_true]
    omega

/-- The signal after a call, as the automaton has it. -/
theorem writable_after (call : GateCall) (g : Gate) :
    (g.after call).writable = (g.reading.take (.call call)).writable :=
  congrArg Hysteresis.writable (reading_after call g)

theorem Settled.queue_closes_iff (hg : g.Settled) (hw : g.writable = true) {n : UInt64}
    (hfits : g.queued.toNat + n.toNat < UInt64.size) :
    (g.after (.queue n)).writable = false ↔ g.bytesBeforeUnwritable ≤ n.toNat := by
  have hbelow := hg.1 hw
  have hopen : (g.reading.move (.call (.queue n))).writable = true := hw
  have hsum : (g.reading.move (.call (.queue n))).queued = g.queued.toNat + n.toNat :=
    Nat.mod_eq_of_lt hfits
  calc (g.after (.queue n)).writable = false
      ↔ g.marks.high.toNat < g.queued.toNat + n.toNat := by
        rw [writable_after, Hysteresis.take, Hysteresis.judge_closes_iff hopen, hsum]
        rfl
    _ ↔ g.bytesBeforeUnwritable ≤ n.toNat := by
        rw [bytesBeforeUnwritable_of_writable hw]
        omega

theorem Settled.flush_opens_iff (hg : g.Settled) (hw : g.writable = false) (n : UInt64) :
    (g.after (.flush n)).writable = true ↔ g.bytesBeforeWritable ≤ n.toNat := by
  have habove := hg.2 hw
  have hclosed : (g.reading.move (.call (.flush n))).writable = false := hw
  calc (g.after (.flush n)).writable = true
      ↔ g.queued.toNat - n.toNat ≤ g.marks.low.toNat := by
        rw [writable_after, Hysteresis.take,
          Hysteresis.judge_opens_iff hclosed g.marks.low_le_high]
        rfl
    _ ↔ g.bytesBeforeWritable ≤ n.toNat := by
        rw [bytesBeforeWritable_of_not_writable hw]
        omega

end Gate

namespace GateSession

variable {s : GateSession}

/-- Among passive listeners both budgets are exact at every moment. An open gate has at least one
byte to go, and queueing closes it exactly if it reaches the budget; a closed gate has at least one
byte to be written, and a flush opens it exactly if it reaches the budget. Just one of the two is
not zero. -/
theorem budgets_exact (hs : s.Reached) :
    (s.gate.writable = true → 1 ≤ s.gate.bytesBeforeUnwritable
        ∧ ∀ n : UInt64, s.gate.queued.toNat + n.toNat < UInt64.size →
          ((run (.call (.queue n)) s).2.gate.writable = false
            ↔ s.gate.bytesBeforeUnwritable ≤ n.toNat))
      ∧ (s.gate.writable = false → 1 ≤ s.gate.bytesBeforeWritable
        ∧ ∀ n : UInt64, ((run (.call (.flush n)) s).2.gate.writable = true
          ↔ s.gate.bytesBeforeWritable ≤ n.toNat))
      ∧ (s.gate.bytesBeforeUnwritable ≠ 0 ↔ s.gate.bytesBeforeWritable = 0) := by
  have hg := hs.settled
  refine ⟨?_, ?_, hg.bytesBefore_ne_zero_iff⟩
  · intro hw
    refine ⟨hg.bytesBeforeUnwritable_pos hw, fun n hfits => ?_⟩
    rw [hs.run_call]
    exact hg.queue_closes_iff hw hfits
  · intro hw
    refine ⟨hg.bytesBeforeWritable_pos hw, fun n => ?_⟩
    rw [hs.run_call]
    exact hg.flush_opens_iff hw n

/-- With 5 bytes queued between marks of 10 and 20, the sixteenth byte closes the gate; with 30
queued, the twentieth byte written opens it. -/
theorem budgets_exact_band :
    let opened := runAll [.call (.queue 5)] (start ⟨10, 20, by decide⟩ [⟨"first", []⟩])
    let closed := runAll [.call (.queue 5), .call (.queue 25)]
      (start ⟨10, 20, by decide⟩ [⟨"first", []⟩])
    opened.Reached ∧ closed.Reached
      ∧ opened.gate.bytesBeforeUnwritable = 16
      ∧ (run (.call (.queue 16)) opened).2.gate.writable = false
      ∧ ¬ (run (.call (.queue 15)) opened).2.gate.writable = false
      ∧ closed.gate.bytesBeforeWritable = 20
      ∧ (run (.call (.flush 20)) closed).2.gate.writable = true
      ∧ ¬ (run (.call (.flush 19)) closed).2.gate.writable = true := by
  intro opened closed
  have hopened : opened.Reached :=
    ⟨⟨10, 20, by decide⟩, [⟨"first", []⟩], [.call (.queue 5)], by simp [Listener.Passive],
      by simp [GateStep.Passive], rfl⟩
  have hclosed : closed.Reached :=
    ⟨⟨10, 20, by decide⟩, [⟨"first", []⟩], [.call (.queue 5), .call (.queue 25)],
      by simp [Listener.Passive], by simp [GateStep.Passive], rfl⟩
  have hgate : opened.gate = ⟨5, ⟨10, 20, by decide⟩, true, [0]⟩ := by decide +kernel
  have hgate' : closed.gate = ⟨30, ⟨10, 20, by decide⟩, false, [0]⟩ := by decide +kernel
  obtain ⟨-, hqueue⟩ := (budgets_exact hopened).1 (by rw [hgate])
  obtain ⟨-, hflush⟩ := (budgets_exact hclosed).2.1 (by rw [hgate'])
  refine ⟨hopened, hclosed, by rw [hgate]; rfl, ?_, ?_, by rw [hgate']; rfl, ?_, ?_⟩
  · exact (hqueue 16 (by rw [hgate]; decide)).2 (by rw [hgate]; decide)
  · exact mt (hqueue 15 (by rw [hgate]; decide)).1 (by rw [hgate]; decide)
  · exact (hflush 20).2 (by rw [hgate']; decide)
  · exact mt (hflush 19).1 (by rw [hgate']; decide)

end GateSession

end FlowControl
