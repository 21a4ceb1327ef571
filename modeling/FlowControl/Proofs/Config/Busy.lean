import FlowControl.Proofs.Config.Keeps

/-!
# Clients that call back

A listener, a hook or a read closure may call the configuration again, and be called in the middle
of that. What each of them does is up to the application. Here it is written down beforehand: the
agenda has one turn for each call of client code, in the order in which the calls will come, whoever
is called. Whatever the clients of a finite run do, and on whatever grounds, some agenda says so; so
a statement about all agendas is one about all clients.

The world also keeps what nobody else does: the messages that are charged and not yet released, and
a picture of the configuration at each moment at which client code has its say.

Calls nest, and every nested step belongs to a turn that has been taken off the agenda. So no step
needs more depth than the agenda is long (`runAll_finished`).
-/

set_option autoImplicit false

namespace FlowControl

/-! ## Outstanding messages -/

/-- What happened to the sum of the charges: a message was charged, or one was released. -/
inductive Deal where
  /-- `due` bytes were outstanding already. -/
  | charged (due : Nat) (size : UInt64)
  /-- The message had been charged with `charge`, and `others` bytes stay outstanding. -/
  | released (charge size : UInt64) (others : Nat)
deriving DecidableEq, Repr

/-- The messages that are charged and not released, with their charges, and all deals so far. -/
structure Ledger where
  outstanding : List (Message × UInt64)
  deals : List Deal
deriving DecidableEq, Repr

namespace Ledger

def empty : Ledger := ⟨[], []⟩

/-- The sum of the charges of outstanding messages. -/
def due (l : Ledger) : Nat := l.outstanding.foldl (fun n o => n + o.2.toNat) 0

def charge (m : Message) (size : UInt64) (l : Ledger) : Ledger :=
  ⟨l.outstanding ++ [(m, size)], l.deals ++ [.charged l.due size]⟩

/-- The ledger after message `i` has been released at a size, which need not be its charge. -/
def discharge (i : Nat) (size : UInt64) (l : Ledger) : Ledger :=
  match l.outstanding[i]? with
  | none => l
  | some (_, charge) =>
    let rest : Ledger := { l with outstanding := l.outstanding.eraseIdx i }
    { rest with deals := l.deals ++ [.released charge size rest.due] }

end Ledger

/-! ## The world -/

/-- A step of client code: a call, or something that is followed over several calls. -/
inductive ClientStep (t : OptionTable) (allowed : Call t → Prop) where
  | call (c : Call t) (h : allowed c)
  /-- Queue a message, which is outstanding from then on. -/
  | send (m : Message)
  /-- Report an outstanding message as written; nothing happens if there is no such message. -/
  | release (i : Nat)
  /-- Read with a closure that has its say at every read. -/
  | pass (script : List (ScriptedRead Empty))
  /-- Offer a value to a layer itself. -/
  | offer (slot : Slot) (k : OptionKey) (v : Value)
  /-- Work on a receive handle itself. -/
  | handle (i : Nat) (f : RecvHandle → RecvHandle)

/-- What client code does when it is called: it takes some steps, and if it is a hook it has a
verdict. -/
structure Turn (t : OptionTable) (allowed : Call t → Prop) where
  verdict : Option String
  steps : List (ClientStep t allowed)

/-- The moments at which client code has its say. -/
inductive Occasion where
  | writability (listener : Nat) (value : Bool)
  | autoRead (listener : Nat) (value : Bool)
  | asked (hook : Nat) (value : Value)
  | reading
  | returned
  /-- A step was not taken for want of depth, which never happens. -/
  | unfinished
deriving DecidableEq

structure Moment (κ : Type) where
  occasion : Occasion
  config : Config κ
  ledger : Ledger

/-- A configuration among clients that call back. -/
structure Busy (κ : Type) (t : OptionTable) (allowed : Call t → Prop) where
  config : Config κ
  earlier : List RecvHandle
  ledger : Ledger
  agenda : List (Turn t allowed)
  moments : List (Moment κ)

namespace Busy

variable {κ : Type} {t : OptionTable} {allowed : Call t → Prop}

def start (config : Config κ) (agenda : List (Turn t allowed)) : Busy κ t allowed :=
  ⟨config, [], .empty, agenda, []⟩

def mark (o : Occasion) (s : Busy κ t allowed) : Busy κ t allowed :=
  { s with moments := s.moments ++ [⟨o, s.config, s.ledger⟩] }

/-- How a step is taken. -/
abbrev Runner (κ : Type) (t : OptionTable) (allowed : Call t → Prop) :=
  ClientStep t allowed → Busy κ t allowed → Busy κ t allowed

def takeSteps (run : Runner κ t allowed) (steps : List (ClientStep t allowed))
    (s : Busy κ t allowed) : Busy κ t allowed :=
  steps.foldl (fun s step => (run step s).mark .returned) s

/-- Client code is called: the next turn of the agenda says what it does. -/
def act (run : Runner κ t allowed) (o : Occasion) (s : Busy κ t allowed) : Busy κ t allowed :=
  match s.agenda with
  | [] => s.mark o
  | turn :: rest => takeSteps run turn.steps { s.mark o with agenda := rest }

/-- The world around the configuration, given how steps are taken. Its log is not kept. -/
def host (run : Runner κ t allowed) : Host κ (Busy κ t allowed) where
  config s := s.config
  setConfig config s := { s with config }
  note _ s := s
  writabilityChanged listener value := act run (.writability listener value)
  autoReadChanged listener value := act run (.autoRead listener value)
  check hook v s := (s.agenda.head?.bind (·.verdict), act run (.asked hook v) s)
  earlier s := s.earlier
  setEarlier earlier s := { s with earlier }
  budget s := s.agenda.length

section Steps

variable [OptionLayer κ]

def exec (run : Runner κ t allowed) (step : ClientStep t allowed) (s : Busy κ t allowed) :
    Busy κ t allowed :=
  let size := s.config.core.estimator.size
  match step with
  | .call c _ => (host run).perform c s
  -- The message is outstanding as soon as it is passed, before any listener hears of it.
  | .send m => ((host run).queueMessage m { s with ledger := s.ledger.charge m (size m) }).2
  | .release i =>
    match s.ledger.outstanding[i]? with
    | none => s
    | some (m, _) =>
      ((host run).flushMessage m { s with ledger := s.ledger.discharge i (size m) }).2
  | .pass script =>
    ((host run).readPass (ScriptedRead.closure fun _ => act run .reading) script s).world
  | .offer slot k v => ((host run).trySetAt k v slot s).2
  | .handle i f => (host run).handleHost.modify i f s

def perform : Nat → Runner κ t allowed
  | 0, _, s => s.mark .unfinished
  | depth + 1, step, s => exec (perform depth) step s

def run (step : ClientStep t allowed) (s : Busy κ t allowed) : Busy κ t allowed :=
  (perform (s.agenda.length + 1) step s).mark .returned

def runAll (steps : List (ClientStep t allowed)) (s : Busy κ t allowed) : Busy κ t allowed :=
  steps.foldl (fun s step => run step s) s

end Steps

/-! ## What a turn keeps -/

variable {P : Busy κ t allowed → Prop} {run : Runner κ t allowed} {s : Busy κ t allowed}

theorem takeSteps_keeps (hrun : ∀ step s, P s → P ((run step s).mark .returned))
    (steps : List (ClientStep t allowed)) (hs : P s) : P (takeSteps run steps s) :=
  List.foldlRecOn steps _ hs fun s hs step _ => hrun step s hs

theorem act_keeps (hagenda : ∀ agenda s, P s → P { s with agenda })
    (hrun : ∀ step s, P s → P ((run step s).mark .returned)) {o : Occasion} (hs : P (s.mark o)) :
    P (act run o s) := by
  unfold act
  split
  · exact hs
  · exact takeSteps_keeps hrun _ (hagenda _ _ hs)

/-! ## What a step keeps -/

section Steps

variable [OptionLayer κ]

/-- A step that begins with `P` ends with `Q`, if all calls keep `P` or lead to `Q`, and the two
dealings with messages lead to `Q`. -/
theorem exec_leads {Q : Busy κ t allowed → Prop} (hweaken : ∀ s, P s → Q s)
    (hk : (host run).Keeps P) (hreading : ∀ s, P s → P (act run .reading s))
    (hcall : ∀ c s, allowed c → ¬ c.Routine → P s → Q ((host run).perform c s))
    (hsend : ∀ m s, P s → Q (exec run (.send m) s))
    (hrelease : ∀ i s, P s → Q (exec run (.release i) s))
    (step : ClientStep t allowed) (hs : P s) : Q (exec run step s) := by
  cases step with
  | call c h =>
    by_cases hc : c.Routine
    · exact hweaken _ (hk.perform hs hc)
    · exact hcall c s h hc hs
  | send m => exact hsend m s hs
  | release i => exact hrelease i s hs
  | pass script =>
    refine hweaken _ (hk.readPass hs ?_ script)
    intro capacity script s hs
    cases script with
    | nil => exact hs
    | cons read rest => exact hreading s hs
  | offer slot k v => exact hweaken _ (hk.trySetAt hs k v slot)
  | handle i f => exact hweaken _ (hk.setHandle hs i _)

end Steps

/-- The property does not look at the gate or the ledger, and it is kept where client code is called
and where the auto-read switch is turned. -/
structure GateBlind (run : Runner κ t allowed) (P : Busy κ t allowed → Prop) : Prop where
  config : ∀ c s, P s → c.core.autoRead = s.config.core.autoRead →
    c.core.autoReadListeners = s.config.core.autoReadListeners → P { s with config := c }
  earlier : ∀ handles s, P s → P { s with earlier := handles }
  ledger : ∀ l s, P s → P { s with ledger := l }
  writability : ∀ l v s, P s → P (act run (.writability l v) s)
  asked : ∀ hook v s, P s → P (act run (.asked hook v) s)
  reading : ∀ s, P s → P (act run .reading s)
  setAutoRead : ∀ on s, P s → P ((host run).setAutoRead on s)
  addAutoReadListener : ∀ l s, allowed (.addAutoReadListener l) → P s →
    P ((host run).addAutoReadListener l s)

namespace GateBlind

theorem setGate (h : GateBlind run P) (g : Gate) (s : Busy κ t allowed) (hs : P s) :
    P ((host run).gateHost.setGate g s) := h.config _ s hs rfl rfl

theorem settle (h : GateBlind run P) (hs : P s) : P ((host run).gateHost.settle s) :=
  GateHost.settle_keeps h.setGate (fun _ _ hs => hs) h.writability hs

theorem gate (h : GateBlind run P) (call : GateCall) (hs : P s) :
    P ((host run).gateHost.perform call s).2 :=
  GateHost.perform_keeps h.setGate (fun _ _ hs => hs) h.writability call hs

theorem keeps (h : GateBlind run P) : (host run).Keeps P where
  setConfig hs hsame := h.config _ _ hs hsame.autoRead hsame.autoReadListeners
  note _ _ hs := hs
  setEarlier handles _ hs := h.earlier handles _ hs
  check hook v _ hs := h.asked hook v _ hs
  setAutoRead on _ hs := h.setAutoRead on _ hs
  setMarks _ _ hs := h.settle (h.setGate _ _ hs)
  addWritabilityListener _ _ hs := h.setGate _ _ hs

variable [OptionLayer κ]

theorem exec (h : GateBlind run P) (step : ClientStep t allowed) (hs : P s) :
    P (exec run step s) := by
  refine exec_leads (fun _ hs => hs) h.keeps h.reading ?_ ?_ ?_ step hs
  · intro c s hallowed hc hs
    refine Host.perform_of_not_routine hc (fun call => h.gate call hs) ?_
    rintro l rfl
    exact h.addAutoReadListener l s hallowed hs
  · intro m s hs
    exact h.gate (.queue (s.config.core.estimator.size m)) (h.ledger _ s hs)
  · intro i s hs
    unfold Busy.exec
    dsimp only
    split
    · exact hs
    · exact h.gate (.flush (s.config.core.estimator.size _)) (h.ledger _ s hs)

end GateBlind

/-! ## Depth -/

/-- At most `n` turns are left, and every step so far was taken. -/
def Finished (n : Nat) (s : Busy κ t allowed) : Prop :=
  s.agenda.length ≤ n ∧ ∀ m ∈ s.moments, m.occasion ≠ .unfinished

theorem Finished.mark {n : Nat} {o : Occasion} (h : Finished n s) (ho : o ≠ .unfinished) :
    Finished n (s.mark o) := by
  refine ⟨h.1, ?_⟩
  intro m hm
  rcases List.mem_append.1 hm with hm | hm
  · exact h.2 m hm
  · rw [List.mem_singleton.1 hm]
    exact ho

/-- The steps of a turn need less depth, since the turn is off the agenda when they are taken. -/
theorem Finished.act {n : Nat} {o : Occasion}
    (hrun : ∀ m < n, ∀ step s, Finished m s → Finished m (run step s)) (h : Finished n s)
    (ho : o ≠ .unfinished) : Finished n (act run o s) := by
  unfold Busy.act
  split
  · exact h.mark ho
  · rename_i turn rest hagenda
    have hlength : rest.length < n := by
      have hle := h.1
      rw [hagenda] at hle
      exact hle
    have hrest : Finished rest.length { s.mark o with agenda := rest } :=
      ⟨Nat.le_refl _, (h.mark ho).2⟩
    have hend : Finished rest.length (takeSteps run turn.steps { s.mark o with agenda := rest }) :=
      takeSteps_keeps (fun step s hs => (hrun _ hlength step s hs).mark nofun) _ hrest
    exact ⟨Nat.le_of_lt (Nat.lt_of_le_of_lt hend.1 hlength), hend.2⟩

theorem Finished.gateBlind {n : Nat}
    (hrun : ∀ m < n, ∀ step s, Finished m s → Finished m (run step s)) :
    GateBlind run (Finished n) where
  config _ _ hs _ _ := hs
  earlier _ _ hs := hs
  ledger _ _ hs := hs
  writability _ _ _ hs := hs.act hrun nofun
  asked _ _ _ hs := hs.act hrun nofun
  reading _ hs := hs.act hrun nofun
  setAutoRead on _ hs :=
    Host.setAutoRead_keeps (fun _ _ hs => hs) (fun _ _ hs => hs)
      (fun _ _ _ hs => hs.act hrun nofun) on hs
  addAutoReadListener _ _ _ hs := hs

section Steps

variable [OptionLayer κ]

theorem perform_finished (depth : Nat) :
    ∀ n < depth, ∀ (step : ClientStep t allowed) (s : Busy κ t allowed),
      Finished n s → Finished n (perform depth step s) := by
  induction depth with
  | zero => intro n hn; exact absurd hn (Nat.not_lt_zero n)
  | succ depth ih =>
    intro n hn step s hs
    have hrun : ∀ m < n, ∀ (step : ClientStep t allowed) (s : Busy κ t allowed),
        Finished m s → Finished m (perform depth step s) := by
      intro m hm
      exact ih m (by omega)
    exact (Finished.gateBlind hrun).exec step hs

/-- What holds at the start of a run and is kept by every step, at any depth, holds at its end. -/
theorem runAll_keeps (hrun : ∀ depth step s, P s → P ((perform depth step s).mark .returned))
    (steps : List (ClientStep t allowed)) (hs : P s) : P (runAll steps s) :=
  List.foldlRecOn steps _ hs fun s hs step _ => hrun _ step s hs

/-- No step of a run lacks depth. -/
theorem runAll_finished (c : Config κ) (agenda : List (Turn t allowed))
    (steps : List (ClientStep t allowed)) :
    ∀ m ∈ (runAll steps (start c agenda)).moments, m.occasion ≠ .unfinished := by
  have hstart : Finished agenda.length (start c agenda) :=
    ⟨Nat.le_refl _, fun _ hm => absurd hm List.not_mem_nil⟩
  have hend : Finished agenda.length (runAll steps (start c agenda)) := by
    refine List.foldlRecOn steps _ hstart ?_
    intro s hs step _
    have hstep := perform_finished (s.agenda.length + 1) s.agenda.length (Nat.lt_succ_self _) step
      s ⟨Nat.le_refl _, hs.2⟩
    exact Finished.mark ⟨Nat.le_trans hstep.1 hs.1, hstep.2⟩ nofun
  exact hend.2

end Steps

end Busy

end FlowControl
