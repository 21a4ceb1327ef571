import FlowControl.Proofs.Config.Steering
import FlowControl.Proofs.Sizing.Pass
import FlowControl.Sizing.Script

/-!
# Read passes that are steered

A pass goes on with the handle that was in use when it began, whatever its closure does to the
channel between two reads. The pass and the closure meet only in that handle, and there they change
different things: reports change the prediction and the record, a steer changes the limit. So the
one does not care when the other happens (`ReadSide.modify_after`), and the read side in the middle
of a pass is what the steers so far would have left without it, with all reports of the pass made to
the captured handle afterwards (`Steered.InPass`).

`Steered.readPass_steered` is what follows from that for whole passes, with any closure that decides
at every read, on whatever grounds, how it steers and what it returns.
-/

set_option autoImplicit false

namespace FlowControl

/-! ## Updates and limits -/

namespace RecvHandle

/-- The handle of a pass after the reports it got from it. -/
def duringPass (rs : List (Nat × Nat)) (h : RecvHandle) : RecvHandle := h.reset.reports rs

/-- An update that has nothing to do with the limit. -/
def IgnoresLimit (f : RecvHandle → RecvHandle) : Prop :=
  ∀ limit h, f (h.withLimit limit) = (f h).withLimit limit

theorem IgnoresLimit.limit {f : RecvHandle → RecvHandle} (hf : IgnoresLimit f) (h : RecvHandle) :
    (f h).limit = h.limit := by
  have hsame : f h = (f h).withLimit h.limit := hf h.limit h
  rw [hsame]
  rfl

theorem ignoresLimit_duringPass (rs : List (Nat × Nat)) : IgnoresLimit (·.duringPass rs) := by
  intro limit h
  show (h.reset.withLimit limit).reports rs = (h.reset.reports rs).withLimit limit
  generalize h.reset = h
  induction rs generalizing h with
  | nil => rfl
  | cons r rs ih => exact ih (h.report r.1 r.2)

/-- Right after a report, the buffer that counts is the one that was reported. -/
theorem shouldContinue_report {done bytes capacity : Nat} {h : RecvHandle} (hpos : 0 < bytes) :
    (h.report bytes capacity).shouldContinue done bytes = true ↔
      done < h.limit.toNat ∧ capacity ≤ bytes := by
  show (decide (done < h.limit.toNat) && decide (0 < bytes) && decide (capacity ≤ bytes)) = true ↔ _
  simp [hpos]

theorem duringPass_report (rs : List (Nat × Nat)) (bytes capacity : Nat) (h : RecvHandle) :
    (h.duringPass rs).report bytes capacity = h.duringPass (rs ++ [(bytes, capacity)]) := by
  simp only [duringPass, reports, List.foldl_append, List.foldl_cons, List.foldl_nil]

theorem strategy_duringPass (rs : List (Nat × Nat)) (h : RecvHandle) :
    (h.duringPass rs).strategy = h.strategy := h.reset.strategy_reports rs

end RecvHandle

/-! ## One handle among several -/

namespace ReadSide

open RecvHandle

variable {p : ReadSide} {i j : Nat} {f g : RecvHandle → RecvHandle}

def modify (i : Nat) (f : RecvHandle → RecvHandle) (p : ReadSide) : ReadSide :=
  if i < p.earlier.length then { p with earlier := p.earlier.set i (f (p.handleAt i)) }
  else { p with handle := f (p.handleAt i) }

theorem modify_of_lt (hi : i < p.earlier.length) :
    p.modify i f = { p with earlier := p.earlier.set i (f (p.handleAt i)) } := if_pos hi

theorem modify_of_eq (hi : i = p.earlier.length) :
    p.modify i f = { p with handle := f p.handle } := by
  subst hi
  rw [modify, if_neg (Nat.lt_irrefl _), handleAt_length]

theorem autoRead_modify : (p.modify i f).autoRead = p.autoRead := by
  unfold modify
  split <;> rfl

theorem strategy_modify : (p.modify i f).strategy = p.strategy := by
  unfold modify
  split <;> rfl

theorem length_modify : (p.modify i f).earlier.length = p.earlier.length := by
  unfold modify
  split
  · exact List.length_set
  · rfl

theorem handleAt_modify_self (hi : i ≤ p.earlier.length) :
    (p.modify i f).handleAt i = f (p.handleAt i) := by
  rcases Nat.lt_or_eq_of_le hi with hlt | heq
  · rw [modify_of_lt hlt]
    simp [handleAt, hlt]
  · rw [modify_of_eq heq]
    simp [handleAt, heq]

theorem handleAt_modify_ne (hi : i ≤ p.earlier.length) (hj : j ≤ p.earlier.length) (hne : i ≠ j) :
    (p.modify i f).handleAt j = p.handleAt j := by
  rcases Nat.lt_or_eq_of_le hi with hlt | heq
  · rw [modify_of_lt hlt]
    simp [handleAt, hne]
  · rw [modify_of_eq heq]
    have hlt : j < p.earlier.length := by omega
    simp [handleAt, hlt]

theorem modify_modify (hi : i ≤ p.earlier.length) :
    (p.modify i f).modify i g = p.modify i fun h => g (f h) := by
  rcases Nat.lt_or_eq_of_le hi with hlt | heq
  · rw [modify_of_lt (by rwa [length_modify]), handleAt_modify_self hi, modify_of_lt hlt,
      modify_of_lt hlt]
    simp
  · rw [modify_of_eq (by rwa [length_modify]), modify_of_eq heq, modify_of_eq heq]

/-- A handle that was there before a steer can as well be updated after it. -/
theorem modify_after (hf : IgnoresLimit f) (hi : i ≤ p.earlier.length) (x : Steer) :
    (p.modify i f).after x = (p.after x).modify i f := by
  rcases Nat.lt_or_eq_of_le hi with hlt | heq
  case inl =>
    rw [modify_of_lt hlt, modify_of_lt (Nat.lt_of_lt_of_le hlt (length_le_length_after x)),
      handleAt_after_of_lt hlt]
    cases x with
    | switch on => rfl
    | limit n => rfl
    | replace strategy => simp [after, List.set_append_left _ _ hlt]
  case inr =>
    rw [modify_of_eq heq]
    cases x with
    | switch on =>
      rw [modify_of_eq (show i = (p.after (.switch on)).earlier.length from heq)]
      rfl
    | limit n =>
      rw [modify_of_eq (show i = (p.after (.limit n)).earlier.length from heq)]
      simp only [after, hf.limit, hf _ p.handle]
    | replace strategy =>
      -- The handle in use has become the last of the earlier ones.
      have hlt : i < (p.after (.replace strategy)).earlier.length := by simp [after, heq]
      rw [modify_of_lt hlt]
      simp [after, handleAt, heq, hf.limit]

theorem modify_afterAll (hf : IgnoresLimit f) (hi : i ≤ p.earlier.length) (xs : List Steer) :
    (p.modify i f).afterAll xs = (p.afterAll xs).modify i f := by
  induction xs generalizing p with
  | nil => rfl
  | cons x xs ih =>
    rw [afterAll_cons, afterAll_cons, modify_after hf hi,
      ih (Nat.le_trans hi (length_le_length_after x))]

end ReadSide

/-! ## In the middle of a pass -/

/-- The reads of a pass on a configuration, in their order. -/
def Host.passReads {κ σ ρ : Type} (h : Host κ σ) (read : Nat → ρ → σ → ReadStep ρ σ) (r : ρ)
    (s : σ) : List (Seen σ) :=
  h.handleHost.reads (fun s => (h.config s).core.autoRead) read (h.handleHost.current s) r s

/-- What a read closure decides: how to steer, and then what to return. -/
structure Decision (ρ : Type) where
  steers : List Steer
  result : ReadResult
  reader : ρ

namespace Steered

open ReadSide RecvHandle Steer

variable {κ ρ : Type} {run : Runner κ} {p : ReadSide} {past : List (Seen (Steered κ))}
  {s s' : Steered κ}

/-- The closure that decides at each read. Since it knows the world, agenda included, it knows all
that its steers will lead to, and need not look again between them. -/
def closure (run : Runner κ) (plan : Nat → ρ → Steered κ → Decision ρ) (capacity : Nat) (r : ρ)
    (s : Steered κ) : ReadStep ρ (Steered κ) :=
  let decision := plan capacity r s
  ⟨decision.result, decision.reader, takeTurn run decision.steers s⟩

/-- Some reads of a pass have been made and reported. -/
structure InPass (p : ReadSide) (past : List (Seen (Steered κ))) (s : Steered κ) : Prop where
  side : s.side =
    (p.afterAll s.history).modify p.earlier.length (·.duringPass (Seen.reports past))
  history : ∀ x ∈ past, x.world.history <+: s.history

theorem InPass.follows (h : InPass p past s) (hf : Follows s s') : InPass p past s' := by
  obtain ⟨xs, hhistory, hside⟩ := hf.steers
  refine ⟨?_, fun x hx => (h.history x hx).trans ⟨xs, hhistory.symm⟩⟩
  rw [hside, h.side, hhistory, afterAll_append]
  exact modify_afterAll (ignoresLimit_duringPass _) (length_le_length_afterAll _) xs

theorem InPass.length_earlier (h : InPass p past s) :
    s.earlier.length = p.earlier.length + replacements s.history := by
  show s.side.earlier.length = _
  rw [h.side, length_modify, length_afterAll]

theorem InPass.length_le (h : InPass p past s) : p.earlier.length ≤ s.earlier.length := by
  rw [h.length_earlier]
  exact Nat.le_add_right _ _

theorem InPass.autoRead (h : InPass p past s) :
    s.config.core.autoRead = lastSwitch p.autoRead s.history := by
  show s.side.autoRead = _
  rw [h.side, autoRead_modify, autoRead_afterAll]

theorem InPass.handle (h : InPass p past s) :
    (host run).handleHost.handle p.earlier.length s =
      (p.handle.duringPass (Seen.reports past)).withLimit
        (lastLimit p.handle.limit (untilReplaced s.history)) := by
  show s.side.handleAt p.earlier.length = _
  rw [h.side, handleAt_modify_self (length_le_length_afterAll _), handleAt_afterAll]
  exact ignoresLimit_duringPass _ _ _

theorem modify_side (i : Nat) (f : RecvHandle → RecvHandle) (s : Steered κ) :
    ((host run).handleHost.modify i f s).side = s.side.modify i f := by
  show Steered.side (if i < s.earlier.length then _ else _) = if i < s.earlier.length then _ else _
  split <;> rfl

theorem modify_history (i : Nat) (f : RecvHandle → RecvHandle) (s : Steered κ) :
    ((host run).handleHost.modify i f s).history = s.history := by
  show Steered.history (if i < s.earlier.length then _ else _) = _
  split <;> rfl

/-- A pass begins with a reset of the handle in use. -/
theorem inPass_start (s : Steered κ) (hs : s.history = []) :
    InPass s.side [] ((host run).handleHost.modify s.earlier.length (·.reset) s) := by
  refine ⟨?_, fun x hx => absurd hx (List.not_mem_nil)⟩
  rw [modify_side, modify_history, hs]
  rfl

theorem report_eq (i bytes capacity : Nat) (s : Steered κ) :
    (host run).handleHost.report i bytes capacity s =
      (host run).handleHost.modify i (·.report bytes capacity) s := by
  unfold HandleHost.report
  dsimp only
  split <;> rfl

/-- After a read has been reported it is one of those that have been. -/
theorem InPass.read (h : InPass p past s) (capacity : Nat) (result : ReadResult) :
    InPass p (past ++ [⟨capacity, result, s⟩])
      ((host run).handleHost.reportPositive p.earlier.length result.count capacity s) := by
  have hseen : ∀ s' : Steered κ, s'.history = s.history →
      ∀ x ∈ past ++ [⟨capacity, result, s⟩], x.world.history <+: s'.history := by
    intro s' hs' x hx
    rw [hs']
    rcases List.mem_append.1 hx with hx | hx
    · exact h.history x hx
    · obtain rfl := List.mem_singleton.1 hx
      exact List.prefix_rfl
  unfold HandleHost.reportPositive
  split
  case isTrue hempty =>
    refine ⟨?_, hseen s rfl⟩
    rw [h.side, Seen.reports_concat, Seen.report?, if_pos hempty]
    simp
  case isFalse hpos =>
    refine ⟨?_, hseen _ (report_eq .. ▸ modify_history ..)⟩
    rw [report_eq, modify_side, modify_history, h.side, modify_modify (length_le_length_afterAll _),
      Seen.reports_concat, Seen.report?, if_neg hpos]
    simp only [duringPass_report, Option.toList_some]

/-- What the pass asks after a read, in terms of the world that the read left: reporting the read
turns no switch and sets no limit. -/
theorem goes_on_iff {i capacity done : Nat} {result : ReadResult} (hi : i ≤ s.earlier.length)
    (hpos : 0 < capacity) :
    let h : Host κ (Steered κ) := host run
    let s' := h.handleHost.reportPositive i result.count capacity s
    ((h.config s').core.autoRead &&
        (h.handleHost.handle i s').shouldContinue done result.count) = true ↔
      s.config.core.autoRead = true ∧ done < (h.handleHost.handle i s).limit.toNat ∧
        capacity ≤ result.count := by
  intro h s'
  by_cases hempty : result.count = 0
  case pos =>
    simp [hempty, RecvHandle.shouldContinue, Nat.not_le.2 hpos]
  case neg =>
    have hs' : s' = h.handleHost.modify i (·.report result.count capacity) s := by
      rw [← report_eq]
      exact if_neg hempty
    have hside : s'.side = s.side.modify i (·.report result.count capacity) := hs' ▸ modify_side ..
    have hauto : (h.config s').core.autoRead = s.config.core.autoRead :=
      (congrArg ReadSide.autoRead hside).trans autoRead_modify
    have hhandle : h.handleHost.handle i s' =
        (h.handleHost.handle i s).report result.count capacity :=
      (congrArg (handleAt i) hside).trans (handleAt_modify_self hi)
    rw [Bool.and_eq_true, hauto, hhandle, shouldContinue_report (Nat.pos_of_ne_zero hempty)]

/-- What holds of a read that was made after the reads `before`. -/
structure ReadAfter (p : ReadSide) (before : List (Seen (Steered κ))) (x : Seen (Steered κ)) :
    Prop where
  capacity : x.capacity = (p.handle.duringPass (Seen.reports before)).nextCapacity
  world : InPass p before x.world

theorem ReadAfter.capacity_pos {before : List (Seen (Steered κ))} {x : Seen (Steered κ)}
    (hx : ReadAfter p before x) (hmade : p.handle.strategy.Made) : 0 < x.capacity := by
  have hpos := hmade.minimum_pos
  rw [← strategy_duringPass (Seen.reports before)] at hpos
  rw [hx.capacity]
  exact Nat.lt_of_lt_of_le hpos (minimum_le_nextCapacity _)

/-! ## After a pass -/

/-- The pass leaves all handles alone but the captured one. -/
theorem InPass.handle_ne (h : InPass p past s) {i : Nat} (hi : i ≤ s.earlier.length)
    (hne : p.earlier.length ≠ i) :
    (host run).handleHost.handle i s = (p.afterAll s.history).handleAt i := by
  rw [h.length_earlier, ← length_afterAll] at hi
  show s.side.handleAt i = _
  rw [h.side, handleAt_modify_ne (length_le_length_afterAll _) hi hne]

theorem InPass.handle_of_lt (h : InPass p past s) {i : Nat} (hi : i < p.earlier.length) :
    (host run).handleHost.handle i s = p.handleAt i := by
  have hlength := h.length_earlier
  rw [h.handle_ne (by omega) (by omega), handleAt_afterAll_of_lt hi]

theorem InPass.handle_installed (h : InPass p past s) {before after : List Steer}
    {strategy : Strategy} (hsplit : s.history = before ++ .replace strategy :: after) :
    (host run).handleHost.handle (p.earlier.length + replacements before + 1) s =
      ⟨.ofStrategy strategy,
        ⟨lastLimit p.handle.limit (before ++ untilReplaced after), 0, 0⟩⟩ := by
  have hlength := h.length_earlier
  rw [hsplit, replacements_split] at hlength
  rw [h.handle_ne (by omega) (by omega), hsplit, handleAt_installed]

/-- The strategy that was installed last is in use, with its handle. -/
theorem InPass.handle_current (h : InPass p past s) {before after : List Steer}
    {strategy : Strategy} (hsplit : s.history = before ++ .replace strategy :: after)
    (hlast : replacements after = 0) :
    s.config.core.strategy = strategy ∧
      s.config.core.handle =
        ⟨.ofStrategy strategy, ⟨lastLimit p.handle.limit s.history, 0, 0⟩⟩ := by
  constructor
  · show s.side.strategy = strategy
    have hnone : after.filterMap strategy? = [] := List.length_eq_zero_iff.1 hlast
    rw [h.side, strategy_modify, strategy_afterAll, hsplit, List.filterMap_append,
      List.filterMap_cons, hnone]
    simp [strategy?]
  · have hlength := h.length_earlier
    rw [hsplit, replacements_split, hlast] at hlength
    have hcurrent : s.config.core.handle = (host run).handleHost.handle s.earlier.length s :=
      (handleAt_length s.side).symm
    have hnumber : s.earlier.length = p.earlier.length + replacements before + 1 := by omega
    have hlimit :
        lastLimit p.handle.limit s.history = lastLimit p.handle.limit (before ++ after) := by
      rw [hsplit, lastLimit_append, lastLimit_append, lastLimit_cons]
      rfl
    rw [hcurrent, hnumber, h.handle_installed hsplit, untilReplaced_of_replacements hlast, hlimit]

/-! ## Passes -/

/-- The reads of a pass, and the world it leaves. -/
theorem readPass_inPass {c : Config κ} (earlier : List RecvHandle) (agenda : List (List Steer))
    (plan : Nat → ρ → Steered κ → Decision ρ) (r : ρ) :
    let h : Host κ (Steered κ) := host Steered.run
    let read := closure Steered.run plan
    let s := start c earlier agenda
    let reads := h.passReads read r s
    (∀ before x after, reads = before ++ x :: after → ReadAfter s.side before x) ∧
      InPass s.side reads (h.readPass read r s).world := by
  intro h read s reads
  have hcourse := HandleHost.pass_course h.handleHost (fun s => (h.config s).core.autoRead) read
    earlier.length r s
  refine hcourse.along (fun {past r r' s' w result} hs hread => ?_) (inPass_start s rfl)
  have hworld : takeTurn Steered.run (plan _ r s').steers s' = w :=
    congrArg ReadStep.world hread
  have hread : InPass s.side past w := hs.follows (hworld ▸ takeTurn_follows run_follows _ s')
  have hcapacity : (h.handleHost.handle earlier.length s').nextCapacity =
      (s.side.handle.duringPass (Seen.reports past)).nextCapacity :=
    (congrArg RecvHandle.nextCapacity hs.handle).trans rfl
  exact ⟨⟨hcapacity, hread⟩, hread.read _ result⟩

/-- A read pass, whatever its closure and the listeners of the switch do to the channel meanwhile.
There is at least one read. Every read is offered what the captured handle offers after the reports
of the reads before it, and there is a further read exactly if this one did not fail, the switch is
on, the limit of the captured handle leaves room, and the buffer came back full. After each read the
switch is as it was turned last, and the captured handle has the last limit that was accepted before
it was replaced. With the switch off, and never turned on, there is no second read.

In the end the switch is as it was turned last, and the captured handle has seen the reads of the
pass and taken the limits that were set before it was replaced. The handles before it are as they
were, and the handle of every strategy that was installed since stands where the strategy begins,
has seen no read, and has the limit that was accepted last before the next replacement, or before
the end. -/
theorem readPass_steered {c : Config κ} (hmade : c.core.handle.strategy.Made)
    (earlier : List RecvHandle) (agenda : List (List Steer))
    (plan : Nat → ρ → Steered κ → Decision ρ) (r : ρ) :
    let h : Host κ (Steered κ) := host Steered.run
    let read := closure Steered.run plan
    let captured := c.core.handle
    let pass := h.readPass read r (start c earlier agenda)
    let reads := h.passReads read r (start c earlier agenda)
    let history := pass.world.history
    pass.report.offered = reads.map (·.capacity) ∧ reads ≠ [] ∧
    (∀ before x after, reads = before ++ x :: after →
      x.capacity = (captured.duringPass (Seen.reports before)).nextCapacity ∧ 0 < x.capacity ∧
      (after ≠ [] ↔ x.result.error? = none ∧ x.world.config.core.autoRead = true ∧
        before.length + 1 < (h.handleHost.handle earlier.length x.world).limit.toNat ∧
        x.capacity ≤ x.result.count) ∧
      x.world.history <+: history ∧
      x.world.config.core.autoRead = lastSwitch c.core.autoRead x.world.history ∧
      (h.handleHost.handle earlier.length x.world).limit =
        lastLimit captured.limit (untilReplaced x.world.history)) ∧
    (c.core.autoRead = false → .switch true ∉ history → reads.length = 1) ∧
    pass.world.config.core.autoRead = lastSwitch c.core.autoRead history ∧
    h.handleHost.handle earlier.length pass.world =
      (captured.duringPass (Seen.reports reads)).withLimit
        (lastLimit captured.limit (untilReplaced history)) ∧
    (∀ i (hi : i < earlier.length), h.handleHost.handle i pass.world = earlier[i]) ∧
    (∀ before strategy after, history = before ++ .replace strategy :: after →
      h.handleHost.handle (earlier.length + replacements before + 1) pass.world =
        ⟨.ofStrategy strategy, ⟨lastLimit captured.limit (before ++ untilReplaced after), 0, 0⟩⟩ ∧
      (replacements after = 0 →
        pass.world.config.core.strategy = strategy ∧
        pass.world.config.core.handle =
          ⟨.ofStrategy strategy, ⟨lastLimit captured.limit history, 0, 0⟩⟩)) := by
  intro h read captured pass reads history
  have hcourse : HandleHost.Course h.handleHost (fun s => (h.config s).core.autoRead) read
      earlier.length 0 0 r _ reads pass :=
    HandleHost.pass_course h.handleHost _ read earlier.length r (start c earlier agenda)
  obtain ⟨hreads, hend⟩ := readPass_inPass earlier agenda plan r
  have hpos : ∀ before x after, reads = before ++ x :: after → 0 < x.capacity :=
    fun before x after hx => (hreads before x after hx).capacity_pos hmade
  have hgoes : ∀ before x after, reads = before ++ x :: after →
      (after ≠ [] ↔ x.result.error? = none ∧ x.world.config.core.autoRead = true ∧
        before.length + 1 < (h.handleHost.handle earlier.length x.world).limit.toNat ∧
        x.capacity ≤ x.result.count) := by
    intro before x after hx
    refine (hcourse.goes_on before x after hx).trans (and_congr_right fun _ => ?_)
    rw [Nat.zero_add]
    exact goes_on_iff (hreads before x after hx).world.length_le (hpos before x after hx)
  have hsince : ∀ x ∈ reads, x.world.history <+: history := hend.history
  refine ⟨hcourse.offered, hcourse.ne_nil, ?reads, ?single, hend.autoRead, hend.handle, ?earlier,
    ?installed⟩
  case reads =>
    intro before x after hx
    have hmem : x ∈ reads := by
      rw [hx]
      exact List.mem_append_right _ List.mem_cons_self
    have hread := hreads before x after hx
    have hlimit : (h.handleHost.handle earlier.length x.world).limit
        = lastLimit captured.limit (untilReplaced x.world.history) :=
      congrArg RecvHandle.limit hread.world.handle
    exact ⟨hread.capacity, hpos before x after hx, hgoes before x after hx, hsince x hmem,
      hread.world.autoRead, hlimit⟩
  case single =>
    intro hoff hnever
    obtain ⟨x, after, hx⟩ := List.exists_cons_of_ne_nil hcourse.ne_nil
    have hmem : x ∈ reads := by
      rw [hx]
      exact List.mem_cons_self
    have hstill : x.world.config.core.autoRead = false := by
      rw [(hreads [] x after hx).world.autoRead]
      show lastSwitch c.core.autoRead _ = false
      rw [hoff]
      exact lastSwitch_off fun hon => hnever ((hsince x hmem).subset hon)
    have hlast : after = [] := by
      by_contra hmore
      obtain ⟨-, hon, -⟩ := (hgoes [] x after hx).1 hmore
      rw [hstill] at hon
      cases hon
    rw [hx, hlast]
    rfl
  case earlier =>
    intro i hi
    rw [hend.handle_of_lt hi]
    exact congrArg (Option.getD · captured) (List.getElem?_eq_getElem hi)
  case installed =>
    intro before strategy after hsplit
    exact ⟨hend.handle_installed hsplit, hend.handle_current hsplit⟩

/-! ## A pass with three reads -/

/-- The closure that follows a script. -/
def scripted (capacity : Nat) (script : List (ScriptedRead Steer)) (_ : Steered κ) :
    Decision (List (ScriptedRead Steer)) :=
  match script with
  | [] => ⟨[], .wouldBlock, []⟩
  | read :: rest => ⟨read.before, read.answer.result capacity, rest⟩

/-- A channel with a fixed capacity and one listener of the switch. -/
def fixedHundred : Config Empty :=
  { Config.standard with
    core := { Core.standard with
      autoReadListeners := [0], strategy := .fixed 100, handle := .ofStrategy (.fixed 100) } }

/-- The strategy is replaced at the first read, the switch is turned off at the second, and on again
by its listener, and the third read, which sets two limits of which one is refused, does not fill
its buffer. The pass is about the old handle all the time. -/
theorem readPass_steered_three :
    let script : List (ScriptedRead Steer) :=
      [⟨[.replace (.fixed 7), .limit 3], .fill⟩, ⟨[.switch false], .fill⟩,
        ⟨[.limit 0, .limit 5], .less⟩]
    let h : Host Empty (Steered Empty) := host Steered.run
    let pass := h.readPass (closure Steered.run scripted) script
      (start fixedHundred [] [[.switch true]])
    fixedHundred.core.handle.strategy.Made ∧ pass.report.offered = [100, 100, 100] ∧
      pass.world.config.core.autoRead = true ∧
      h.handleHost.handle 0 pass.world = ⟨.fixed 100, ⟨16, 99, 100⟩⟩ ∧
      pass.world.config.core.handle = ⟨.fixed 7, ⟨5, 0, 0⟩⟩ := by
  intro script h pass
  have hmade : fixedHundred.core.handle.strategy.Made :=
    .ofCapacity (show Strategy.ofCapacity 100 = .ok (.fixed 100) from rfl)
  have hreports : Seen.reports (h.passReads (closure Steered.run scripted) script
      (start fixedHundred [] [[.switch true]])) = [(100, 100), (100, 100), (99, 100)] := by
    decide +kernel
  have hhistory : pass.world.history =
      [] ++ .replace (.fixed 7) ::
        [.limit 3, .switch false, .switch true, .limit 0, .limit 5] := by
    decide +kernel
  obtain ⟨-, -, -, -, hswitch, hcaptured, -, hinstalled⟩ :=
    readPass_steered hmade [] [[.switch true]] scripted script
  refine ⟨hmade, by decide +kernel, ?_, ?_, ?_⟩
  · rw [hhistory] at hswitch
    exact hswitch
  · rw [hreports, hhistory] at hcaptured
    exact hcaptured
  · obtain ⟨-, hcurrent⟩ := (hinstalled _ _ _ hhistory).2 rfl
    rw [hhistory] at hcurrent
    exact hcurrent

end Steered

end FlowControl
