import Mathlib.Algebra.Order.BigOperators.Group.List
import Mathlib.Algebra.Order.Group.Nat
import Mathlib.Data.List.MinMax
import Mathlib.Order.Nat
import FlowControl.Proofs.Sizing.Pass
import FlowControl.Proofs.Sizing.Session

/-!
# How long a pass can be

The loop of a pass has no bound of its own. It ends because a further read is made only below the
read limit, and the limit is whatever the closure has left in the handle when the read returns. So a
pass can be longer than the limit it began with, but not than the largest limit that any of its own
reads has left (`SizingSession.pass_bounded`).

A limit is a word of 32 bits, and so are the number of the reads and the count of each. That is
enough for the two counters of a pass, which are words as well: neither of them ever wraps.
-/

set_option autoImplicit false

namespace FlowControl

theorem ReadResult.count_lt (result : ReadResult) : result.count < UInt32.size := by
  cases result with
  | bytes n => exact n.toNat_lt
  | wouldBlock => exact Nat.zero_lt_succ _
  | failed e => exact Nat.zero_lt_succ _

/-! ## The counters of a pass -/

/-- The counters as the words that they are kept in. Their additions wrap. -/
structure PassCounters where
  iterations : UInt32
  totalBytes : UInt64

namespace PassCounters

/-- A read that fails ends the pass and is not counted. -/
def count (c : PassCounters) (result : ReadResult) : PassCounters :=
  match result with
  | .failed _ => c
  | result => ⟨c.iterations + 1, c.totalBytes + .ofNat result.count⟩

/-- The counters after the reads with the given results. -/
def after (results : List ReadResult) : PassCounters := results.foldl count ⟨0, 0⟩

/-- How many of the reads have not failed. -/
def completed (results : List ReadResult) : Nat := results.countP fun r => r.error?.isNone

/-- How many bytes the reads have returned. -/
def bytes (results : List ReadResult) : Nat := (results.map ReadResult.count).sum

variable {results : List ReadResult} {c : PassCounters} {result : ReadResult}

theorem count_of_read (herror : result.error? = none) :
    c.count result = ⟨c.iterations + 1, c.totalBytes + .ofNat result.count⟩ := by
  cases result with
  | failed e => cases herror
  | bytes n => rfl
  | wouldBlock => rfl

theorem completed_le_length (results : List ReadResult) : completed results ≤ results.length :=
  List.countP_le_length

theorem bytes_le (results : List ReadResult) : bytes results ≤ results.length * (2 ^ 32 - 1) := by
  have hsum := List.sum_le_card_nsmul (results.map ReadResult.count) (2 ^ 32 - 1) fun n hn => by
    obtain ⟨result, -, rfl⟩ := List.mem_map.1 hn
    exact Nat.le_pred_of_lt result.count_lt
  simpa [bytes] using hsum

theorem completed_concat (results : List ReadResult) (result : ReadResult) :
    completed (results ++ [result])
      = completed results + if result.error? = none then 1 else 0 := by
  simp [completed, List.countP_append, List.countP_singleton]

theorem bytes_concat (results : List ReadResult) (result : ReadResult) :
    bytes (results ++ [result]) = bytes results + result.count := by
  simp [bytes]

theorem after_concat (results : List ReadResult) (result : ReadResult) :
    after (results ++ [result]) = (after results).count result := by
  rw [after, List.foldl_concat]
  rfl

/-- As long as no more reads are made than a word can number, the words hold the true values. -/
theorem after_eq (hlen : results.length < 2 ^ 32) :
    (after results).iterations.toNat = completed results
      ∧ (after results).totalBytes.toNat = bytes results := by
  induction results using List.reverseRecOn with
  | nil => exact ⟨rfl, rfl⟩
  | append_singleton results result ih =>
    have hnumber := completed_le_length (results ++ [result])
    have htotal := bytes_le (results ++ [result])
    rw [List.length_append, List.length_singleton] at hlen hnumber htotal
    rw [completed_concat] at hnumber ⊢
    rw [bytes_concat] at htotal ⊢
    obtain ⟨hiterations, hbytes⟩ := ih (by omega)
    rw [after_concat]
    cases herror : result.error? with
    | some e =>
      obtain rfl := ReadResult.eq_failed herror
      exact ⟨hiterations, hbytes⟩
    | none =>
      rw [herror, if_pos rfl] at hnumber
      rw [if_pos rfl, count_of_read herror]
      constructor
      · have hone : (1 : UInt32).toNat = 1 := rfl
        rw [UInt32.toNat_add, hiterations, hone]
        exact Nat.mod_eq_of_lt (by omega)
      · have hword : (UInt64.ofNat result.count).toNat = result.count :=
          UInt64.toNat_ofNat_of_lt' (Nat.lt_trans result.count_lt (by decide))
        rw [UInt64.toNat_add, hbytes, hword]
        exact Nat.mod_eq_of_lt (by omega)

end PassCounters

/-! ## The length of a course -/

namespace HandleHost

variable {σ ρ : Type}

/-- The read limit that is in force when a read has been reported. -/
def limitAfter (h : HandleHost σ) (i : Nat) (x : Seen σ) : Nat :=
  (h.handle i (h.reportPositive i x.result.count x.capacity x.world)).limit.toNat

namespace Course

variable {h : HandleHost σ} {keepGoing : σ → Bool} {read : Nat → ρ → σ → ReadStep ρ σ}
  {i done total : Nat} {r : ρ} {s : σ} {seen : List (Seen σ)} {pass : PassEnd ρ σ}

/-- A read is followed by another only below the limit that is in force after it, so no course is
longer than the largest of these limits, unless it is a single read. -/
theorem length_le (hc : Course h keepGoing read i done total r s seen pass) {bound : Nat}
    (hbound : ∀ x ∈ seen, h.limitAfter i x ≤ bound) : seen.length ≤ max 1 (bound - done) := by
  induction hc with
  | failed => exact Nat.le_max_left _ _
  | stopped => exact Nat.le_max_left _ _
  | @continued done _ _ _ _ _ _ _ _ _ _ _ _ _ hreport hgo _ ih =>
    subst hreport
    obtain ⟨hfirst, hrest⟩ := List.forall_mem_cons.1 hbound
    have hlt : done + 1 < bound := Nat.lt_of_lt_of_le
      (RecvHandle.lt_limit_of_shouldContinue (Bool.and_eq_true_iff.1 hgo).2) hfirst
    have hlen := ih hrest
    rw [List.length_cons]
    omega

/-- A pass that returns has counted its reads and their bytes, none of which failed. -/
theorem returned (hc : Course h keepGoing read i done total r s seen pass) {o : PassOutcome}
    (ho : pass.report.result = .ok o) :
    (∀ x ∈ seen, x.result.error? = none) ∧ o.iterations = done + seen.length
      ∧ o.totalBytes = total + PassCounters.bytes (seen.map (·.result)) := by
  induction hc with
  | failed => cases ho
  | stopped _ _ herror =>
    cases ho
    exact ⟨List.forall_mem_singleton.2 herror, rfl, rfl⟩
  | continued _ _ herror _ _ _ ih =>
    obtain ⟨hrest, hiterations, hbytes⟩ := ih ho
    refine ⟨List.forall_mem_cons.2 ⟨herror, hrest⟩, ?_, ?_⟩
    · rw [hiterations, List.length_cons]
      omega
    · rw [hbytes, PassCounters.bytes, PassCounters.bytes, List.map_cons, List.map_cons,
        List.sum_cons, Nat.add_assoc]

end Course

end HandleHost

namespace SizingSession

variable {ρ : Type}

/-- The read limit that a read leaves when it returns. -/
def limitLeft (i : Nat) (x : Seen SizingSession) : Nat := (x.world.handleAt i).limit.toNat

/-- The largest read limit that any of the reads leaves. -/
def largestLimit (i : Nat) (xs : List (Seen SizingSession)) : Nat :=
  (xs.map (limitLeft i)).foldr max 0

theorem limitAfter_eq (i : Nat) (x : Seen SizingSession) :
    host.limitAfter i x = limitLeft i x :=
  congrArg UInt32.toNat (limit_handleAt_reportPositive i x.result.count x.capacity x.world)

theorem limitLeft_le_largestLimit {i : Nat} {x : Seen SizingSession}
    {xs : List (Seen SizingSession)} (hx : x ∈ xs) : limitLeft i x ≤ largestLimit i xs :=
  List.le_max_of_le (List.mem_map_of_mem hx) (Nat.le_refl _)

theorem largestLimit_lt (i : Nat) (xs : List (Seen SizingSession)) :
    largestLimit i xs < 2 ^ 32 := by
  have hle : largestLimit i xs ≤ 2 ^ 32 - 1 := List.max_le_of_forall_le _ _ fun n hn => by
    obtain ⟨x, -, rfl⟩ := List.mem_map.1 hn
    exact Nat.le_pred_of_lt (x.world.handleAt i).limit.toNat_lt
  exact Nat.lt_of_le_pred (Nat.two_pow_pos 32) hle

/-- Whatever the closure does, a pass makes at least one read, and no more than the largest limit
that any of its reads leaves. On the way the words that count the reads and the bytes hold the true
values, and a pass that returns returns what they hold. -/
theorem pass_bounded (keepGoing : SizingSession → Bool)
    (read : Nat → ρ → SizingSession → ReadStep ρ SizingSession) (i : Nat) (r : ρ)
    (s : SizingSession) :
    let reads := host.reads keepGoing read i r s
    let pass := host.pass keepGoing read i r s
    (1 ≤ reads.length ∧ reads.length ≤ max 1 (largestLimit i reads))
      ∧ (∀ before after, reads.map (·.result) = before ++ after →
          (PassCounters.after before).iterations.toNat = PassCounters.completed before
          ∧ (PassCounters.after before).totalBytes.toNat = PassCounters.bytes before)
      ∧ ∀ o, pass.report.result = .ok o →
          o.iterations = (PassCounters.after (reads.map (·.result))).iterations.toNat
          ∧ o.totalBytes = (PassCounters.after (reads.map (·.result))).totalBytes.toNat := by
  intro reads pass
  have hcourse := HandleHost.pass_course host.toHandleHost keepGoing read i r s
  have hpos : 1 ≤ reads.length := List.length_pos_iff.2 hcourse.ne_nil
  have hlen : reads.length ≤ max 1 (largestLimit i reads) :=
    hcourse.length_le fun x hx => (limitAfter_eq i x).trans_le (limitLeft_le_largestLimit hx)
  have hword : reads.length < 2 ^ 32 := by
    have := largestLimit_lt i reads
    omega
  have hcounters : ∀ before after, reads.map (·.result) = before ++ after →
      (PassCounters.after before).iterations.toNat = PassCounters.completed before
      ∧ (PassCounters.after before).totalBytes.toNat = PassCounters.bytes before := by
    intro before after hsplit
    have hsum := congrArg List.length hsplit
    rw [List.length_map, List.length_append] at hsum
    exact PassCounters.after_eq (by omega)
  refine ⟨⟨hpos, hlen⟩, hcounters, fun o ho => ?_⟩
  obtain ⟨hread, hiterations, hbytes⟩ := hcourse.returned ho
  obtain ⟨hall, htotal⟩ := hcounters _ [] (List.append_nil _).symm
  refine ⟨?_, by rw [htotal, hbytes, Nat.zero_add]⟩
  rw [hall, hiterations, Nat.zero_add, PassCounters.completed, List.countP_eq_length.2,
    List.length_map]
  intro result hresult
  obtain ⟨x, hx, rfl⟩ := List.mem_map.1 hresult
  exact Option.isNone_iff_eq_none.2 (hread x hx)

/-- The limit is 0 when the pass begins, and the closure raises it to 3 in every read, each of which
returns one byte more than the buffer holds. Three reads are made. -/
theorem pass_bounded_raised :
    let s := host.modify 0 (·.withLimit 0) (start .standard)
    let read : Nat → Unit → SizingSession → ReadStep Unit SizingSession := fun capacity r s =>
      ⟨.bytes (capacity + 1).toUInt32, r, host.modify 0 (·.withLimit 3) s⟩
    let reads := host.reads (fun _ => true) read 0 () s
    let pass := host.pass (fun _ => true) read 0 () s
    largestLimit 0 reads = 3 ∧ reads.length ≤ 3
      ∧ pass.report.result = .ok ⟨3, 2049 + 32769 + 65537, false⟩
      ∧ (PassCounters.after (reads.map (·.result))).totalBytes = 100355 := by
  intro s read reads pass
  obtain ⟨⟨-, hlen⟩, -, hreturned⟩ := pass_bounded (fun _ => true) read 0 () s
  have hlimit : largestLimit 0 reads = 3 := by decide +kernel
  have hresult : pass.report.result = .ok ⟨3, 2049 + 32769 + 65537, false⟩ := by decide +kernel
  refine ⟨hlimit, ?_, hresult, UInt64.toNat_inj.1 (hreturned _ hresult).2.symm⟩
  change reads.length ≤ max 1 (largestLimit 0 reads) at hlen
  rw [hlimit] at hlen
  exact hlen

end SizingSession

end FlowControl
