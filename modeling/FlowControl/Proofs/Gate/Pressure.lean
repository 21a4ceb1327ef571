import FlowControl.Proofs.Gate.Hysteresis

/-!
# Queueing under pressure

While the signal is down, producers are held back until enough has been written. To queue more bytes
should make that later and never sooner. `Gate.KeepsPressure` says what this asks for: the count
does not fall, a signal that is down stays down, and nobody is told that it is up.

The count is a word, and to queue is to add to it as words are added. So a queue keeps the pressure
exactly if the sum fits into the word. If it does not, the count falls by all that the word cannot
hold; where that leaves no more than the low mark, the signal of a closed gate rises, and every
listener is told so (`Gate.Settled.queueing`).
-/

set_option autoImplicit false

namespace FlowControl

namespace Gate

/-- A sum of two words, as a word. -/
theorem sum_mod_size {q n : Nat} (hq : q < UInt64.size) (hn : n < UInt64.size) :
    (q + n) % UInt64.size = if q + n < UInt64.size then q + n else q + n - UInt64.size := by
  split
  case isTrue hfits => exact Nat.mod_eq_of_lt hfits
  case isFalse hover =>
    rw [Nat.mod_eq_sub_mod (Nat.le_of_not_lt hover)]
    exact Nat.mod_eq_of_lt (by omega)

/-- From the gate `g` to the gate `g'` nothing has relieved the producers, where `heard` is what
listeners have been told in between. -/
structure KeepsPressure (g g' : Gate) (heard : List Bool) : Prop where
  queued_le : g.queued ≤ g'.queued
  stays_closed : g.writable = false → g'.writable = false
  not_told : true ∉ heard

/-- What the listeners of a gate are told when its signal was `before`. -/
def tells (before : Bool) (g : Gate) : List Bool :=
  if g.writable = before then [] else List.replicate g.listeners.length g.writable

/-- What it comes to when `n` bytes are queued at the gate `g`, which has become `g'`. -/
structure Queueing (g : Gate) (n : UInt64) (g' : Gate) (heard : List Bool) : Prop where
  keeps_iff : g.KeepsPressure g' heard ↔ g.queued.toNat + n.toNat < UInt64.size
  opens_iff : g.writable = false →
    (g'.writable = true ↔ UInt64.size ≤ g.queued.toNat + n.toNat
      ∧ g.queued.toNat + n.toNat - UInt64.size ≤ g.marks.low.toNat)
  heard : heard = g'.tells g.writable

variable {g : Gate}

theorem toNat_queued_after_queue (g : Gate) (n : UInt64) :
    (g.after (.queue n)).queued.toNat = (g.queued.toNat + n.toNat) % UInt64.size :=
  congrArg Hysteresis.queued (reading_after (.queue n) g)

/-- A count that wraps around is smaller than it was. -/
theorem queued_le_after_queue_iff (g : Gate) (n : UInt64) :
    g.queued ≤ (g.after (.queue n)).queued ↔ g.queued.toNat + n.toNat < UInt64.size := by
  have hqueued : g.queued.toNat < UInt64.size := g.queued.toNat_lt_size
  have hbytes : n.toNat < UInt64.size := n.toNat_lt_size
  rw [UInt64.le_iff_toNat_le, toNat_queued_after_queue, sum_mod_size hqueued hbytes]
  split <;> omega

/-- A closed gate is above its low mark, so that a queue opens it only by way of a count that wraps
around. -/
theorem Settled.queue_opens_iff (hg : g.Settled) (hw : g.writable = false) (n : UInt64) :
    (g.after (.queue n)).writable = true ↔ UInt64.size ≤ g.queued.toNat + n.toNat
      ∧ g.queued.toNat + n.toNat - UInt64.size ≤ g.marks.low.toNat := by
  have habove : g.marks.low.toNat < g.queued.toNat := hg.2 hw
  have hclosed : (g.reading.move (.call (.queue n))).writable = false := hw
  calc (g.after (.queue n)).writable = true
      ↔ (g.reading.move (.call (.queue n))).judge.writable = true := by
        rw [← Hysteresis.take, ← reading_after]
        rfl
    _ ↔ (g.queued.toNat + n.toNat) % UInt64.size ≤ g.marks.low.toNat :=
        Hysteresis.judge_opens_iff hclosed g.marks.low_le_high
    _ ↔ _ := by
        rw [sum_mod_size g.queued.toNat_lt_size n.toNat_lt_size]
        split <;> omega

theorem mem_tells {before v : Bool} (hv : v ∈ g.tells before) :
    g.writable ≠ before ∧ g.writable = v := by
  unfold tells at hv
  split at hv
  case isTrue => cases hv
  case isFalse hturned => exact ⟨hturned, (List.mem_replicate.1 hv).2.symm⟩

/-- Queueing at a gate that is settled, when nobody acts. -/
theorem Settled.queueing (hg : g.Settled) (n : UInt64) :
    g.Queueing n (g.after (.queue n)) ((g.after (.queue n)).tells g.writable) where
  keeps_iff := by
    refine ⟨fun hkept => (queued_le_after_queue_iff g n).1 hkept.queued_le, fun hfits => ?_⟩
    have hclosed : g.writable = false → (g.after (.queue n)).writable = false := by
      intro hw
      by_contra hopen
      have hover := ((hg.queue_opens_iff hw n).1 (eq_true_of_ne_false hopen)).1
      omega
    refine ⟨(queued_le_after_queue_iff g n).2 hfits, hclosed, fun htold => ?_⟩
    obtain ⟨hturned, hopen⟩ := mem_tells htold
    have hw : g.writable = false := by
      rw [hopen] at hturned
      exact eq_false_of_ne_true hturned.symm
    rw [hclosed hw] at hopen
    cases hopen
  opens_iff hw := hg.queue_opens_iff hw n
  heard := rfl

end Gate

namespace GateSession

/-- What listeners are told, line by line. -/
def heardIn (J : List GateEntry) : List Bool :=
  J.filterMap fun
    | .called _ v _ => some v
    | _ => none

theorem heardIn_lines (before : Bool) (g : Gate) : heardIn (g.lines before) = g.tells before := by
  unfold Gate.lines Gate.tells
  split
  · rfl
  · simp [heardIn, Gate.flipLines, Gate.flipEntry]

variable {s : GateSession}

/-- Queueing at any gate with passive listeners. -/
theorem Reached.queueing (hs : s.Reached) (n : UInt64) :
    let s' := (GateSession.run (.call (.queue n)) s).2
    s.gate.Queueing n s'.gate (heardIn (s'.journal.drop s.journal.length)) := by
  intro s'
  have hrun : s' = _ := hs.run_call (.queue n)
  rw [hrun]
  dsimp only
  rw [List.drop_left, heardIn_lines]
  exact hs.settled.queueing n

end GateSession

end FlowControl
