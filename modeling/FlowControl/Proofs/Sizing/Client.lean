import FlowControl.Proofs.Sizing.Pass

/-!
# Clients of a receive handle

What can be told apart of two handles depends on what a client may do with them. A client here is a
program over the calls of a handle (`Client`): it looks at what the handle shows, asks whether to go
on, reports reads, changes the read limit, and makes passes whose closure is a client again. What it
does next may depend in any way on the answers it has had, but on nothing else of the world: that is
what a closure over a world could not say.

Two handles are in step if they show the same and stay so under what changes them
(`HandleHost.InStep`). Then no client can tell them apart (`Client.run_inStep`). The step that is
not immediate is a pass, where the two loops have to go on and end together; it is an induction on
the course of one of them (`HandleHost.Course.inStep`).
-/

set_option autoImplicit false

namespace FlowControl

/-- What a handle shows of itself: its snapshot, with the read limit. -/
structure HandleView where
  nextCapacity : Nat
  lastCapacity : Nat
  lastBytes : Nat
  minimum : Nat
  maximum : Nat
  limit : UInt32
deriving DecidableEq, Repr

def RecvHandle.view (h : RecvHandle) : HandleView where
  nextCapacity := h.nextCapacity
  lastCapacity := h.record.lastCapacity
  lastBytes := h.record.lastBytes
  minimum := h.strategy.minimum
  maximum := h.strategy.maximum
  limit := h.limit

/-- A program over the calls of a receive handle. -/
inductive Client : Type → Type 1 where
  | done {α : Type} (answer : α) : Client α
  | look {α : Type} (next : HandleView → Client α) : Client α
  /-- Ask whether to go on after so many reads, the last of which returned so many bytes. -/
  | ask {α : Type} (reads bytes : Nat) (next : Bool → Client α) : Client α
  | report {α : Type} (bytes capacity : Nat) (next : Client α) : Client α
  | setLimit {α : Type} (limit : UInt32) (next : Client α) : Client α
  | reset {α : Type} (next : Client α) : Client α
  /-- Make a pass. The closure has a state of its own, and may use the handle between two reads. -/
  | pass {α ρ : Type} (read : Nat → ρ → Client (ReadResult × ρ)) (r : ρ)
    (next : PassReport → ρ → Client α) : Client α

/-- The client at work on the handle with number `i`. -/
def Client.run {σ : Type} (h : HandleHost σ) (i : Nat) {α : Type} : Client α → σ → α × σ
  | .done answer, s => (answer, s)
  | .look next, s => (next (h.handle i s).view).run h i s
  | .ask reads bytes next, s => (next ((h.handle i s).shouldContinue reads bytes)).run h i s
  | .report bytes capacity next, s => next.run h i (h.report i bytes capacity s)
  | .setLimit limit next, s => next.run h i (h.modify i (·.withLimit limit) s)
  | .reset next, s => next.run h i (h.modify i (·.reset) s)
  | .pass read r next, s =>
    let closure := fun capacity r s =>
      let out := (read capacity r).run h i s
      (⟨out.1.1, out.1.2, out.2⟩ : ReadStep _ σ)
    let out := h.pass (fun _ => true) closure i r s
    (next out.report out.reader).run h i out.world

/-- The closure of a pass, when its reads are clients. -/
def Client.closure {σ ρ : Type} (h : HandleHost σ) (i : Nat)
    (read : Nat → ρ → Client (ReadResult × ρ)) (capacity : Nat) (r : ρ) (s : σ) : ReadStep ρ σ :=
  let out := (read capacity r).run h i s
  ⟨out.1.1, out.1.2, out.2⟩

theorem Client.run_pass {σ ρ α : Type} (h : HandleHost σ) (i : Nat)
    (read : Nat → ρ → Client (ReadResult × ρ)) (r : ρ) (next : PassReport → ρ → Client α) (s : σ) :
    (Client.pass read r next).run h i s =
      let out := h.pass (fun _ => true) (closure h i read) i r s
      (next out.report out.reader).run h i out.world := rfl

namespace RecvHandle

variable {h k : RecvHandle}

/-- The rule for going on asks for nothing but what the handle shows. -/
theorem shouldContinue_congr (hview : h.view = k.view) (reads bytes : Nat) :
    h.shouldContinue reads bytes = k.shouldContinue reads bytes := by
  have hlimit : h.limit = k.limit := congrArg HandleView.limit hview
  have hlast : h.record.lastCapacity = k.record.lastCapacity :=
    congrArg HandleView.lastCapacity hview
  rw [shouldContinue, shouldContinue, hlimit, hlast]

end RecvHandle

/-! ## Two handles in step -/

namespace HandleHost

variable {σ τ ρ : Type} {h : HandleHost σ} {k : HandleHost τ} {i j : Nat} {R : σ → τ → Prop}

/-- The worlds that `R` relates have handles that show the same, and what is done to both leads to
such worlds again. -/
structure InStep (h : HandleHost σ) (k : HandleHost τ) (i j : Nat) (R : σ → τ → Prop) : Prop where
  view : ∀ {s t}, R s t → (h.handle i s).view = (k.handle j t).view
  report : ∀ {s t}, R s t → ∀ bytes capacity,
    R (h.report i bytes capacity s) (k.report j bytes capacity t)
  limit : ∀ {s t}, R s t → ∀ limit,
    R (h.modify i (·.withLimit limit) s) (k.modify j (·.withLimit limit) t)
  reset : ∀ {s t}, R s t → R (h.modify i (·.reset) s) (k.modify j (·.reset) t)

/-- Two reads with the same result that leave related worlds. -/
structure SameRead (R : σ → τ → Prop) (x : ReadStep ρ σ) (y : ReadStep ρ τ) : Prop where
  result : x.result = y.result
  reader : x.reader = y.reader
  world : R x.world y.world

/-- Two passes that have told the same and leave related worlds. -/
structure SamePass (R : σ → τ → Prop) (p : PassEnd ρ σ) (q : PassEnd ρ τ) : Prop where
  report : p.report = q.report
  reader : p.reader = q.reader
  world : R p.world q.world

theorem InStep.reportPositive (hin : InStep h k i j R) {s : σ} {t : τ} (hst : R s t)
    (bytes capacity : Nat) :
    R (h.reportPositive i bytes capacity s) (k.reportPositive j bytes capacity t) := by
  unfold HandleHost.reportPositive
  split
  · exact hst
  · exact hin.report hst bytes capacity

section Passes

variable {read : Nat → ρ → σ → ReadStep ρ σ} {read' : Nat → ρ → τ → ReadStep ρ τ}
  (hin : InStep h k i j R)
  (hread : ∀ capacity r {s t}, R s t → SameRead R (read capacity r s) (read' capacity r t))

include hin hread

/-- A read on one side is the same read on the other. -/
theorem InStep.sameRead {capacity : Nat} {r r' : ρ} {s w : σ} {t : τ} {result : ReadResult}
    (hst : R s t) (hoffer : (h.handle i s).nextCapacity = capacity)
    (hstep : read capacity r s = ⟨result, r', w⟩) :
    (k.handle j t).nextCapacity = capacity
      ∧ ∃ w', read' capacity r t = ⟨result, r', w'⟩ ∧ R w w' := by
  have hnext : (k.handle j t).nextCapacity = capacity :=
    (congrArg HandleView.nextCapacity (hin.view hst)).symm.trans hoffer
  obtain ⟨hresult, hreader, hworld⟩ := hread capacity r hst
  rw [hstep] at hresult hreader hworld
  cases hstep' : read' capacity r t with
  | mk result' reader' w' =>
    rw [hstep'] at hresult hreader hworld
    obtain rfl : result = result' := hresult
    obtain rfl : r' = reader' := hreader
    exact ⟨hnext, w', rfl, hworld⟩

/-- The loops of two passes with related closures go on and end together. -/
theorem Course.inStep {done total : Nat} {r : ρ} {s : σ} {seen : List (Seen σ)}
    {pass : PassEnd ρ σ} (hc : Course h (fun _ => true) read i done total r s seen pass) {t : τ}
    (hst : R s t) : SamePass R pass (k.passFrom (fun _ => true) read' j done total r t) := by
  induction hc generalizing t with
  | failed hoffer hstep =>
    obtain ⟨hoffer', w', hstep', hw⟩ := hin.sameRead hread hst hoffer hstep
    rw [passFrom_of_failed k _ read' j _ _ hoffer' hstep']
    exact ⟨rfl, rfl, hw⟩
  | @stopped _ _ capacity _ _ _ _ _ result hoffer hstep herror hreport hstop =>
    subst hreport
    obtain ⟨hoffer', w', hstep', hw⟩ := hin.sameRead hread hst hoffer hstep
    have hnext := hin.reportPositive hw result.count capacity
    rw [RecvHandle.shouldContinue_congr (hin.view hnext)] at hstop
    rw [passFrom_of_read k _ read' j _ _ hoffer' hstep' herror rfl, hstop]
    exact ⟨rfl, rfl, hnext⟩
  | @continued _ _ capacity _ _ _ _ _ result _ _ hoffer hstep herror hreport hgo _ ih =>
    subst hreport
    obtain ⟨hoffer', w', hstep', hw⟩ := hin.sameRead hread hst hoffer hstep
    have hnext := hin.reportPositive hw result.count capacity
    rw [RecvHandle.shouldContinue_congr (hin.view hnext)] at hgo
    rw [passFrom_of_read k _ read' j _ _ hoffer' hstep' herror rfl, hgo]
    obtain ⟨hrest, hreader, hworld⟩ := ih hnext
    refine ⟨?_, hreader, hworld⟩
    simp only [if_true, hrest]

theorem InStep.pass (r : ρ) {s : σ} {t : τ} (hst : R s t) :
    SamePass R (h.pass (fun _ => true) read i r s) (k.pass (fun _ => true) read' j r t) :=
  Course.inStep hin hread (pass_course h (fun _ => true) read i r s) (hin.reset hst)

end Passes

end HandleHost

open HandleHost

/-- A client cannot tell two handles apart that are in step: it has the same answers from both, and
leaves them in step. -/
theorem Client.run_inStep {σ τ : Type} {h : HandleHost σ} {k : HandleHost τ} {i j : Nat}
    {R : σ → τ → Prop} (hin : InStep h k i j R) {α : Type} (c : Client α) {s : σ} {t : τ}
    (hst : R s t) : (c.run h i s).1 = (c.run k j t).1 ∧ R (c.run h i s).2 (c.run k j t).2 := by
  induction c generalizing s t with
  | done answer => exact ⟨rfl, hst⟩
  | look next ih =>
    rw [run, run, hin.view hst]
    exact ih _ hst
  | ask reads bytes next ih =>
    rw [run, run, RecvHandle.shouldContinue_congr (hin.view hst)]
    exact ih _ hst
  | report bytes capacity next ih =>
    rw [run, run]
    exact ih (hin.report hst bytes capacity)
  | setLimit limit next ih =>
    rw [run, run]
    exact ih (hin.limit hst limit)
  | reset next ih =>
    rw [run, run]
    exact ih (hin.reset hst)
  | pass read r next ihread ihnext =>
    rw [run_pass, run_pass]
    have hread : ∀ capacity r {s t}, R s t →
        SameRead R (closure h i read capacity r s) (closure k j read capacity r t) := by
      intro capacity r s t hst
      obtain ⟨hanswer, hworld⟩ := ihread capacity r hst
      exact ⟨congrArg Prod.fst hanswer, congrArg Prod.snd hanswer, hworld⟩
    obtain ⟨hreport, hreader, hworld⟩ := hin.pass hread r hst
    dsimp only
    rw [hreport, hreader]
    exact ihnext _ _ hworld

end FlowControl
