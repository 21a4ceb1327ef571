import FlowControl.Proofs.Config.Preserves
import FlowControl.Proofs.Config.Regular
import FlowControl.Proofs.Option.Identity

/-!
# Clients that are watched

What a configuration promises (`Config.Promised`) is to hold whenever client code can look at it,
and this includes listeners, hooks and read closures that call the configuration again while a call
is under way. What they do is written down beforehand, in an agenda that has one turn for each call
of client code; whatever the clients of a finite run do, some agenda says so.

To say what the read limit is, the world keeps a list of the values that were accepted for it. A
limit can come as an option of its own, within a batch, with a profile, or through the setter. The
setter answers at once. For the others the answer would come too late: by the time a batch returns,
a listener that was called for a later entry may have set the limit again. So the world reads the
log, which has a line for every option that was set, and takes down what the call under way asks of
the limit (`Call.asked`). The line has the name of the option only, which is enough since no other
option of the table has that name. That the line tells the same as the answer is
`Watched.setOption_accepted`.
-/

set_option autoImplicit false

namespace FlowControl

namespace Call

variable {t : OptionTable}

/-- The value that a call asks for the read limit as an option, if it does. -/
def asked (c : Call t) : Option Int32 :=
  match (OptionMap.mk c.writes).find? .maxMessagesPerRead with
  | some (.i32 n) => some n
  | _ => none

/-- The call is not the setter of the read limit, and a batch has one entry for each option. -/
def Plain : Call t → Prop
  | .set .maxMessages _ => False
  | .trySetOptions batch _ => batch.Listed t
  | _ => True

theorem Plain.not_setsLimit {c : Call t} (h : c.Plain) : ¬ c.SetsLimit := by
  cases c with
  | set o v =>
    cases o with
    | maxMessages => exact h.elim
    | _ => exact id
  | _ => exact id

theorem Plain.listed (ht : t.Coherent) {c : Call t} (h : c.Plain) :
    (OptionMap.mk c.writes).Listed t := by
  cases c with
  | setOption k v => exact ⟨List.pairwise_singleton _ _, List.forall_mem_singleton.2 k.known⟩
  | trySetOptions batch known => exact h
  | applyProfile p => exact p.listed_batch ht
  | _ => exact .empty

end Call

/-! ## The world -/

/-- A step of client code. The core takes a read limit that is offered to it exactly as its setter
does, so that such an offer is the step `limit`. -/
inductive Watched.Step (t : OptionTable) where
  /-- Set the read limit through its setter. -/
  | limit (n : Int32)
  | call (c : Call t) (h : c.Plain)
  /-- Read with a closure that has its say at every read. -/
  | pass (script : List (ScriptedRead Empty))
  /-- Offer a value to a layer itself. -/
  | offer (slot : Slot) (k : OptionKey) (v : Value) (h : slot = .core → ¬ k.IsLimit)
  /-- Use a receive handle itself, but not to set its limit. -/
  | handle (i : Nat) (u : RecvHandle.Use) (h : ∀ n, u ≠ .limit n)

/-- What client code does when it is called: it takes some steps, and if it is a hook it has a
verdict. -/
structure Watched.Turn (t : OptionTable) where
  verdict : Option String
  steps : List (Watched.Step t)

/-- What client code can look at, with the limits accepted so far. -/
structure Watched.Moment (κ : Type) where
  config : Config κ
  accepted : List Int32

structure Watched (κ : Type) (t : OptionTable) where
  config : Config κ
  earlier : List RecvHandle
  agenda : List (Watched.Turn t)
  /-- What the call under way asks of the read limit. -/
  asking : Option Int32
  accepted : List Int32
  moments : List (Watched.Moment κ)
  /-- A step was not taken for want of depth, which never happens. -/
  cut : Bool

namespace Watched

variable {κ : Type} {t : OptionTable}

def start (config : Config κ) (accepted : List Int32) (agenda : List (Turn t)) : Watched κ t :=
  ⟨config, [], agenda, none, accepted, [], false⟩

def mark (s : Watched κ t) : Watched κ t :=
  { s with moments := s.moments ++ [⟨s.config, s.accepted⟩] }

def note (n : Notice) (s : Watched κ t) : Watched κ t :=
  match n with
  | .optionSet _ option =>
    if option = OptionKey.maxMessagesPerRead.name then
      { s with accepted := s.accepted ++ s.asking.toList }
    else s
  | _ => s

/-- How a step is taken. -/
abbrev Runner (κ : Type) (t : OptionTable) := Step t → Watched κ t → Watched κ t

def takeSteps (run : Runner κ t) (steps : List (Step t)) (s : Watched κ t) : Watched κ t :=
  steps.foldl (fun s step => (run step s).mark) s

/-- Client code is called: the next turn of the agenda says what it does. -/
def act (run : Runner κ t) (s : Watched κ t) : Watched κ t :=
  match s.agenda with
  | [] => s.mark
  | turn :: rest => takeSteps run turn.steps { s.mark with agenda := rest }

/-- The world around the configuration, given how steps are taken. -/
def host (run : Runner κ t) : Host κ (Watched κ t) where
  config s := s.config
  setConfig config s := { s with config }
  note := note
  writabilityChanged _ _ := act run
  autoReadChanged _ _ := act run
  check _ _ s := (s.agenda.head?.bind (·.verdict), act run s)
  earlier s := s.earlier
  setEarlier earlier s := { s with earlier }
  budget s := s.agenda.length

/-- The setter of the read limit says itself whether it accepts the value. -/
def setLimit (run : Runner κ t) (n : Int32) (s : Watched κ t) : Watched κ t :=
  match (host run).setCore .maxMessages (.i32 n) s with
  | (.ok (), s) => { s with accepted := s.accepted ++ [n] }
  | (.error _, s) => s

section Steps

variable [OptionLayer κ]

def exec (run : Runner κ t) (step : Step t) (s : Watched κ t) : Watched κ t :=
  match step with
  | .limit n => setLimit run n s
  | .call c _ =>
    -- Calls from inside callbacks ask for something else, until they return.
    { (host run).perform c { s with asking := c.asked } with asking := s.asking }
  | .pass script =>
    ((host run).readPass (ScriptedRead.closure fun _ => act run) script s).world
  | .offer slot k v _ => ((host run).trySetAt k v slot s).2
  | .handle i u _ => (host run).handleHost.modify i (·.use u) s

def perform : Nat → Runner κ t
  | 0, _, s => { s with cut := true }
  | depth + 1, step, s => exec (perform depth) step s

def run (step : Step t) (s : Watched κ t) : Watched κ t :=
  (perform (s.agenda.length + 1) step s).mark

def runAll (steps : List (Step t)) (s : Watched κ t) : Watched κ t :=
  steps.foldl (fun s step => run step s) s

/-- What is taken down is what the answer says: the limit that a call asks for, if the answer is
that it has been set, and nothing otherwise. -/
theorem setOption_accepted (run : Runner κ t) {s : Watched κ t} {n : Int32}
    (hasking : s.asking = some n) :
    let out := (host run).setOption .maxMessagesPerRead (.i32 n) s
    (out.1 = .ok true ∧ out.2.accepted = s.accepted ++ [n])
      ∨ ∃ e, out.1 = .error e ∧ out.2.accepted = s.accepted := by
  intro out
  have hout : out = (host run).setThrough .maxMessagesPerRead (.i32 n) s.config.chain s := rfl
  have hset : (host run).setCore .maxMessages (.i32 n) s
      = (host run).tryCore (·.withMaxMessages n) s := rfl
  rw [Config.chain, List.cons_append, Host.setThrough, Host.trySetAt] at hout
  simp only [CoreOption.ofKey?_of_isLimit (k := .maxMessagesPerRead) rfl, hset,
    Host.tryCore] at hout
  cases hcore : ((host run).config s).core.withMaxMessages n with
  | error e =>
    rw [hcore] at hout
    exact .inr ⟨e, hout ▸ ⟨rfl, rfl⟩⟩
  | ok core =>
    rw [hcore] at hout
    have htaken : s.accepted ++ s.asking.toList = s.accepted ++ [n] := by
      rw [hasking, Option.toList_some]
    exact .inl (hout ▸ ⟨rfl, htaken⟩)

end Steps

/-! ## What every step keeps -/

/-- At most `n` turns are left, no step has been cut, the call under way asks for `asking`, and the
configuration is regular, as it has been all the time. -/
structure Kept (n : Nat) (asking : Option Int32) (s : Watched κ t) : Prop where
  left : s.agenda.length ≤ n
  uncut : s.cut = false
  asking : s.asking = asking
  now : s.config.Regular (lastAccepted s.accepted)
  past : ∀ m ∈ s.moments, m.config.Regular (lastAccepted m.accepted)

/-- Steps can be relied on as long as less than `n` turns are left. -/
def Reliable (n : Nat) (run : Runner κ t) : Prop :=
  ∀ m < n, ∀ asking step s, Kept m asking s → Kept m asking (run step s)

/-- What may be set while a call asks for `asking`: options of the table, and as the read limit no
other value. -/
def May (t : OptionTable) (asking : Option Int32) (k : OptionKey) (v : Value) : Prop :=
  k ∈ t.keys ∧ (k.IsLimit → ∀ n, v = .i32 n → asking = some n)

theorem eq_of_isLimit (ht : t.Coherent) {k : OptionKey} (hknown : k ∈ t.keys) (hk : k.IsLimit) :
    k = .maxMessagesPerRead := ht.unique k hknown _ (ht.builtIn _ (by decide)) hk

theorem name_ne_of_not_isLimit (ht : t.Coherent) (hnames : t.Distinct) {k : OptionKey}
    (hknown : k ∈ t.keys) (hk : ¬ k.IsLimit) : k.name ≠ OptionKey.maxMessagesPerRead.name := by
  intro heq
  have hsame := (hnames.same_iff hknown (ht.builtIn _ (by decide))).2 heq
  exact hk (beq_iff_eq.1 hsame)

theorem may_writes (ht : t.Coherent) {c : Call t} (hc : c.Plain) :
    ∀ e ∈ c.writes, May t c.asked e.1 e.2 := by
  intro e he
  have hlisted := hc.listed ht
  refine ⟨hlisted.known e he, ?_⟩
  intro hk n hn
  have hfind := hlisted.find?_eq he
  rw [eq_of_isLimit ht (hlisted.known e he) hk, hn] at hfind
  rw [Call.asked, hfind]

namespace Kept

variable {n : Nat} {asking : Option Int32} {s : Watched κ t} {run : Runner κ t}

theorem setConfig (h : Kept n asking s) {config : Config κ}
    (hconfig : config.Regular (lastAccepted s.accepted)) : Kept n asking { s with config } :=
  ⟨h.left, h.uncut, h.asking, hconfig, h.past⟩

theorem setCore (h : Kept n asking s) {core : Core}
    (hcore : core.Regular (lastAccepted s.accepted)) :
    Kept n asking { s with config := { s.config with core } } :=
  h.setConfig ⟨hcore, h.now.sockets⟩

/-- A limit is stored and taken down. -/
theorem accept (h : Kept n asking s) {core : Core} {limit : Int32}
    (hstore : s.config.core.store .maxMessages (.i32 limit) = .ok core) :
    Kept n asking
      { s with config := { s.config with core }, accepted := s.accepted ++ [limit] } := by
  refine ⟨h.left, h.uncut, h.asking, ⟨?_, h.now.sockets⟩, h.past⟩
  rw [lastAccepted_concat]
  exact h.now.core.storeLimit hstore

theorem mark (h : Kept n asking s) : Kept n asking s.mark := by
  refine ⟨h.left, h.uncut, h.asking, h.now, ?_⟩
  intro m hm
  rcases List.mem_append.1 hm with hm | hm
  · exact h.past m hm
  · rw [List.mem_singleton.1 hm]
    exact h.now

/-- The steps of a turn are taken when it is off the agenda. -/
theorem act (hrun : Reliable n run) (h : Kept n asking s) : Kept n asking (act run s) := by
  unfold Watched.act
  split
  · exact h.mark
  · rename_i turn rest hagenda
    have hlength : rest.length < n := by
      have hle := h.left
      rw [hagenda] at hle
      exact hle
    have hstart : Kept rest.length asking { s.mark with agenda := rest } :=
      ⟨Nat.le_refl _, h.uncut, h.asking, h.now, h.mark.past⟩
    have hend : Kept rest.length asking
        (takeSteps run turn.steps { s.mark with agenda := rest }) :=
      List.foldlRecOn _ _ hstart fun s hs step _ => (hrun _ hlength asking step s hs).mark
    exact ⟨Nat.le_of_lt (Nat.lt_of_le_of_lt hend.left hlength), hend.uncut, hend.asking, hend.now,
      hend.past⟩

theorem setGate (h : Kept n asking s) (g : Gate) :
    Kept n asking ((host run).gateHost.setGate g s) := h.setCore (h.now.core.withSignals g _ _)

theorem settle (hrun : Reliable n run) (h : Kept n asking s) :
    Kept n asking ((host run).gateHost.settle s) :=
  GateHost.settle_keeps (fun g _ hs => hs.setGate g) (fun _ _ hs => hs)
    (fun _ _ _ hs => hs.act hrun) h

theorem gate (hrun : Reliable n run) (h : Kept n asking s) (call : GateCall) :
    Kept n asking ((host run).gateHost.perform call s).2 :=
  GateHost.perform_keeps (fun g _ hs => hs.setGate g) (fun _ _ hs => hs)
    (fun _ _ _ hs => hs.act hrun) call h

theorem setAutoRead (hrun : Reliable n run) (h : Kept n asking s) (on : Bool) :
    Kept n asking ((host run).setAutoRead on s) :=
  Host.setAutoRead_keeps (fun on _ hs => hs.setCore (hs.now.core.withSignals _ on _))
    (fun _ _ hs => hs) (fun _ _ _ hs => hs.act hrun) on h

theorem setLimit (h : Kept n asking s) (limit : Int32) :
    Kept n asking (setLimit run limit s) := by
  have hset : (host run).setCore .maxMessages (.i32 limit) s
      = (host run).tryCore (·.withMaxMessages limit) s := rfl
  have hconfig : (host run).config s = s.config := rfl
  unfold Watched.setLimit
  rw [hset, Host.tryCore, hconfig]
  cases hcore : s.config.core.withMaxMessages limit with
  | error e => exact h
  | ok core => exact h.accept hcore

/-- The line of the read limit stands for what the call under way asks. -/
theorem limit (ht : t.Coherent) (h : Kept n asking s) {k : OptionKey} {v : Value} {core : Core}
    (hk : k.IsLimit) (hmay : May t asking k v)
    (hcore : s.config.core.store .maxMessages v = .ok core) :
    Kept n asking
      (note (.optionSet "core" k.name) { s with config := { s.config with core } }) := by
  obtain ⟨hknown, hasked⟩ := hmay
  obtain rfl := eq_of_isLimit ht hknown hk
  cases v with
  | i32 limit =>
    have hasking : s.asking = some limit := h.asking.trans (hasked hk limit rfl)
    have haccept := h.accept hcore
    rw [← Option.toList_some, ← hasking] at haccept
    rw [note, if_pos rfl]
    exact haccept
  | _ => cases hcore

theorem preserves (ht : t.Coherent) (hnames : t.Distinct) (hrun : Reliable n run) :
    (host run).Preserves (May t asking) (Kept n asking) where
  store hs ho hcore := by
    refine hs.setCore (hs.now.core.store ?_ hcore)
    rintro rfl
    exact ho
  limit hs hk hmay hcore := hs.limit ht hk hmay hcore
  use hs hu := hs.setCore (hs.now.core.use hu)
  socket hs hi hset := hs.setConfig (hs.now.socket hi hset)
  custom _ _ hs := hs.setConfig (hs.now.setLayer nofun)
  setRegistry slot r s hs := by
    cases slot with
    | layer i => exact hs.setConfig (hs.now.setLayer nofun)
    | core | registry => exact hs.setConfig ⟨hs.now.core, hs.now.sockets⟩
  setEarlier _ _ hs := ⟨hs.left, hs.uncut, hs.asking, hs.now, hs.past⟩
  note {notice s} hs haside := by
    cases notice with
    | optionSet => exact haside.elim
    | _ => exact hs
  noteSet layer k _ s hs hk hmay := by
    have hline : (host run).note (.optionSet layer k.name) s = s :=
      if_neg (name_ne_of_not_isLimit ht hnames hmay.1 hk)
    rw [hline]
    exact hs
  check _ _ _ hs := hs.act hrun
  setAutoRead on _ hs := hs.setAutoRead hrun on
  setMarks _ _ hs := (hs.setGate _).settle hrun
  addWritabilityListener _ _ hs := hs.setGate _

variable [OptionLayer κ]

theorem perform (ht : t.Coherent) (hnames : t.Distinct) (hrun : Reliable n run) {c : Call t}
    (hc : c.Plain) (h : Kept n c.asked s) : Kept n c.asked ((host run).perform c s) := by
  by_cases hroutine : c.Routine
  · exact (preserves ht hnames hrun).perform h hroutine hc.not_setsLimit (may_writes ht hc)
  · exact Host.perform_of_not_routine hroutine (fun call => h.gate hrun call)
      fun _ _ => h.setCore (h.now.core.withSignals _ _ _)

theorem exec (ht : t.Coherent) (hnames : t.Distinct) (hrun : Reliable n run)
    (h : Kept n asking s) (step : Step t) : Kept n asking (exec run step s) := by
  have hp : (host run).Preserves (May t asking) (Kept n asking) := preserves ht hnames hrun
  cases step with
  | limit limit => exact h.setLimit limit
  | call c hc =>
    have hstart : Kept n c.asked { s with asking := c.asked } :=
      ⟨h.left, h.uncut, rfl, h.now, h.past⟩
    have hend := hstart.perform ht hnames hrun hc
    exact ⟨hend.left, hend.uncut, h.asking, hend.now, hend.past⟩
  | pass script =>
    refine hp.readPass h ?_ script
    intro capacity script s hs
    cases script with
    | nil => exact hs
    | cons read rest => exact hs.act hrun
  | offer slot k v hslot => exact hp.trySetAt h v hslot
  | handle i u hu => exact hp.useHandle h i hu

end Kept

/-! ## Runs -/

section Runs

variable [OptionLayer κ]

/-- Every nested step belongs to a turn that is off the agenda, so that no step lacks depth. -/
theorem perform_kept (ht : t.Coherent) (hnames : t.Distinct) (depth : Nat) :
    Reliable depth (perform (κ := κ) (t := t) depth) := by
  induction depth with
  | zero => intro n hn; exact absurd hn (Nat.not_lt_zero n)
  | succ depth ih =>
    intro n hn asking step s hs
    have hrun : Reliable n (perform (κ := κ) (t := t) depth) := by
      intro m hm
      exact ih m (by omega)
    exact hs.exec ht hnames hrun step

theorem runAll_kept (ht : t.Coherent) (hnames : t.Distinct) {n : Nat} {s : Watched κ t}
    (steps : List (Step t)) (h : Kept n none s) : Kept n none (runAll steps s) := by
  refine List.foldlRecOn steps _ h ?_
  intro s hs step _
  have hstart : Kept s.agenda.length none s :=
    ⟨Nat.le_refl _, hs.uncut, hs.asking, hs.now, hs.past⟩
  have hend := perform_kept ht hnames _ _ (Nat.lt_succ_self _) none step s hstart
  exact Kept.mark ⟨Nat.le_trans hend.left hs.left, hend.uncut, hend.asking, hend.now, hend.past⟩

/-- Whatever clients do with a built configuration, from outside and from inside callbacks, and
whether it succeeds or not: at the end, and at each moment at which client code can look at it, it
keeps its promises, and its read limit is the last value that had been accepted until then. The
limit of the builder counts as the first one. -/
theorem runAll_promised {b : Builder κ} {c : Config κ} (hbuild : b.build = .ok c)
    (hsockets : ∀ options, .socket options ∈ b.layers → options.Reached)
    (requests : List OptionTable.Request) (agenda : List (Turn (.serve requests)))
    (steps : List (Step (.serve requests))) :
    let s := runAll steps (start c b.maxMessages.toList agenda)
    s.cut = false ∧ s.config.Promised (lastAccepted s.accepted)
      ∧ ∀ m ∈ s.moments, m.config.Promised (lastAccepted m.accepted) := by
  intro s
  have hnames : (OptionTable.serve requests).Distinct := by
    rw [← OptionTable.serveIn_id]
    exact (OptionTable.distinct_initialIn id).serveFrom requests
  have hregular : c.Regular (lastAccepted b.maxMessages.toList) :=
    Builder.regular_of_build hbuild fun options hmem => (hsockets options hmem).sound
  have hstart : Kept agenda.length none (start c b.maxMessages.toList agenda) :=
    ⟨Nat.le_refl _, rfl, rfl, hregular, fun _ hm => absurd hm List.not_mem_nil⟩
  have hend : Kept agenda.length none s :=
    runAll_kept (OptionTable.serve_coherent requests) hnames steps hstart
  exact ⟨hend.uncut, hend.now.promised, fun m hm => (hend.past m hm).promised⟩

/-- A batch sets the limit to 7 and turns auto-read off. The listener of the switch is called while
the batch is under way; it sets the limit to 9, is refused a limit of 0, and replaces the strategy.
Afterwards a profile brings the limit 11, and two more values are refused. -/
theorem runAll_promised_nested :
    let b : Builder Empty :=
      { maxMessages := some 5, strategy := some (.fixed 100), layers := [.socket .standard] }
    let batch : OptionMap :=
      ⟨[(.maxMessagesPerRead, .i32 7), (.autoRead, .bool false), (.linger, .i32 (-1))]⟩
    let limitKey : (OptionTable.serve []).Key := ⟨.maxMessagesPerRead, by decide⟩
    let agenda : List (Turn (.serve [])) := [⟨none, [.call (.setOption limitKey (.i32 9)) trivial,
      .limit 0, .call (.set .sizing (.sizing (.fixed 64))) trivial]⟩]
    let steps : List (Step (.serve [])) := [.call (.addAutoReadListener 0) trivial,
      .call (.trySetOptions batch (by decide)) ⟨by decide, by decide⟩,
      .call (.applyProfile { maxMessages := some 11, writeSpinCount := some 0 }) trivial,
      .limit (-3), .call (.setOption limitKey (.bool true)) trivial]
    ∃ c, b.build = .ok c ∧
      let s := runAll steps (start c b.maxMessages.toList agenda)
      s.accepted = [5, 7, 9, 11] ∧ s.moments.map (·.accepted.length) = [1, 2, 3, 3, 3, 3, 4, 4, 4]
        ∧ s.config.core.strategy = .fixed 64 ∧ s.config.Promised 11 := by
  intro b batch limitKey agenda steps
  obtain ⟨c, hc⟩ : ∃ c, b.build = .ok c := ⟨_, rfl⟩
  refine ⟨c, hc, ?_⟩
  have hsockets : ∀ options, .socket options ∈ b.layers → options.Reached := by
    intro options hmem
    cases List.mem_singleton.1 hmem
    exact .standard
  intro s
  have hpromised : s.config.Promised (lastAccepted s.accepted) :=
    (runAll_promised hc hsockets [] agenda steps).2.1
  cases hc
  have haccepted : s.accepted = [5, 7, 9, 11] := by decide +kernel
  have hlast : lastAccepted [5, 7, 9, 11] = 11 := by decide
  rw [haccepted, hlast] at hpromised
  exact ⟨haccepted, by decide +kernel, by decide +kernel, hpromised⟩

end Runs

end Watched

end FlowControl
