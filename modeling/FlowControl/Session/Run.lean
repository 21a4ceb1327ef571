import FlowControl.Session.Basic

/-!
# Running a session

Here a session becomes a world for its configurations: a call of a listener, a hook or a read
closure writes its line into the journal and runs the steps that the client has in store for it,
each of them completely, before the call returns.

Every step that a client runs from inside a call was stored before and is not stored any more. So
calls nest at most as deep as there are steps, those stored in the session and those in the step
that is run from outside; `Session.run` starts with that number.
-/

set_option autoImplicit false

namespace FlowControl

namespace Session

/-- How a client runs a step on a channel. -/
abbrev Runner := Nat → Step → Session → Outcome × Session

/-- Run steps of a client one after the other, each with a line in the journal. -/
def runSteps (run : Runner) (channel : Nat) (steps : List Step) (s : Session) : Session :=
  steps.foldl (fun s step =>
    let out := run channel step s
    out.2.write (.did step out.1)) s

def call (run : Runner) (listener : Nat) (value : Bool) (s : Session) : Session :=
  let channel := (s.subscribers[listener]?.map (·.channel)).getD 0
  let taken := (s.write (.called listener value)).takeReaction listener value
  runSteps run channel taken.1 taken.2

def ask (run : Runner) (hook : Nat) (v : Value) (s : Session) : Option String × Session :=
  let channel := (s.hooks[hook]?.map (·.channel)).getD 0
  let verdict := s.verdict hook v
  let taken := (s.write (.asked hook v)).takeScript hook
  (verdict, runSteps run channel taken.1 taken.2)

/-- The session as a world around channel `i`, given how clients run their steps. -/
def host (run : Runner) (i : Nat) : Host AuditLayer Session where
  config s := (s.channel i).config
  setConfig config s := s.modifyChannel i fun c => { c with config }
  note n s := s.write (.notice n)
  writabilityChanged := call run
  autoReadChanged := call run
  check := ask run
  earlier s := (s.channel i).earlier
  setEarlier earlier s := s.modifyChannel i fun c => { c with earlier }
  budget := budget

/-! ## Parts of steps -/

def answer : Except ConfigError Unit × Session → Outcome × Session
  | (.ok (), s) => (.done, s)
  | (.error e, s) => (.failed e, s)

/-- The answer of something that may be absent. -/
def answer? : Option (Except ConfigError Unit) × Session → Outcome × Session
  | (none, s) => (.absent, s)
  | (some r, s) => answer (r, s)

def withOption (o : OptionRef) (s : Session) (f : OptionKey → Session → Outcome × Session) :
    Outcome × Session :=
  match s.resolve o with
  | (.error e, s) => (.failed e, s)
  | (.ok k, s) => f k s

def withEntry (o : OptionRef) (v : ValueSpec) (s : Session)
    (f : OptionKey → Value → Session → Outcome × Session) : Outcome × Session :=
  match s.resolveEntry o v with
  | (.error e, s) => (.failed e, s)
  | (.ok (k, v), s) => f k v s

def withMap (m : MapSpec) (s : Session) (f : OptionMap → Session → Outcome × Session) :
    Outcome × Session :=
  match s.resolveMap m with
  | (.error e, s) => (.failed e, s)
  | (.ok entries, s) => f (.ofList entries) s

def applySetter (h : Host AuditLayer Session) (setter : Setter) (s : Session) :
    Outcome × Session :=
  match setter with
  | .connectTimeout n => answer (h.tryCore (·.withConnectTimeout n) s)
  | .writeSpinCount n => answer (h.tryCore (·.withWriteSpinCount n) s)
  | .maxMessages n => answer (h.tryCore (·.withMaxMessages n) s)
  | .autoRead on => (.done, h.setAutoRead on s)
  | .highMark n => answer (h.gateHost.setHigh n s)
  | .lowMark n => answer (h.gateHost.setLow n s)
  | .marks low high =>
    match WaterMark.ofPair low high with
    | .ok marks => (.done, h.gateHost.setMarks marks s)
    | .error e => (.failed e, s)
  | .sizing spec =>
    match spec.build with
    | .ok strategy => (.done, h.setStrategy strategy s)
    | .error e => (.failed e, s)
  | .estimator e => (.done, h.modifyCore (·.withEstimator e) s)

/-- The change that a setter makes to socket options. -/
def socketChange (setter : SocketSetter) (o : SocketOptions) : Except ConfigError SocketOptions :=
  match setter with
  | .tcpNoDelay on => .ok { o with tcpNoDelay := on }
  | .keepAlive on => .ok { o with keepAlive := on }
  | .reuseAddress on => .ok { o with reuseAddress := on }
  | .receiveBufferSize n => o.withReceiveBufferSize n
  | .sendBufferSize n => o.withSendBufferSize n
  | .linger n => o.withLinger n

def findLayer (kind : LayerKind) (c : Config AuditLayer) : Option Slot :=
  match kind with
  | .core => some .core
  | .socket => c.socketSlot?.map .layer
  | .registry => some c.firstRegistry
  | .custom => c.customSlot?.map .layer

/-- The world of a client that works on the receive handle of a configuration. There is one handle
in use, which this client cannot change. -/
def sizingHost (h : Host AuditLayer Session) : SizingHost Session :=
  { h.handleHost with
    another := fun s => (none, s)
    use := fun _ s => s }

def shown (f : Value → Outcome) : Option Value → Outcome
  | none => .absent
  | some v => f v

/-! ## Steps -/

/-- Perform a step on channel `i`, given how clients run theirs. -/
def exec (run : Runner) (i : Nat) (step : Step) (s : Session) : Outcome × Session :=
  let h := host run i
  match step with
  | .use j => (.done, { s with current := j })
  | .set setter => applySetter h setter s
  | .setCore setter => applySetter h setter s
  | .get o => withOption o s fun k s =>
    match (h.config s).getOption k with
    | .ok v => (.value v, s)
    | .error e => (.failed e, s)
  | .setOption o v => withEntry o v s fun k v s =>
    match h.setOption k v s with
    | (.ok accepted, s) => (.flag accepted, s)
    | (.error e, s) => (.failed e, s)
  | .setOptions m => withMap m s fun batch s =>
    let out := h.setOptions batch s
    (.flag out.1, out.2)
  | .trySetOptions m => withMap m s fun batch s =>
    let out := h.trySetOptions batch s
    (.rejections out.1, out.2)
  | .getOptions => (.map (h.config s).getOptions, s)
  | .save => (.done, { s with saved := s.saved ++ [(h.config s).getOptions] })
  | .showSaved j => (.map (s.saved.getD j .empty), s)
  | .applySaved j =>
    let out := h.trySetOptions (s.saved.getD j .empty) s
    (.rejections out.1, out.2)
  | .applyProfile source =>
    match source.read with
    | .error e => (.failed e, s)
    | .ok p => answer (h.applyProfile p s)
  | .gate c =>
    let out := h.gateHost.perform c s
    (.gate out.1, out.2)
  | .gateListener label reactions => addWritability h label reactions s
  | .queue n => (.done, h.gateHost.queue n s)
  | .flush n => (.done, h.gateHost.flush n s)
  | .queueMessage m =>
    let out := h.queueMessage m s
    (.bytes out.1, out.2)
  | .flushMessage m =>
    let out := h.flushMessage m s
    (.bytes out.1, out.2)
  | .onWritable label reactions => addWritability h label reactions s
  | .onAutoRead label reactions =>
    let out := s.subscribe i label reactions
    (.done, h.addAutoReadListener out.1 out.2)
  | .read bytes capacity => (.done, h.reportRead bytes capacity s)
  | .mayContinue done bytes => (.flag (h.shouldContinue done bytes s), s)
  | .pass script =>
    let out := h.readPass (ScriptedRead.closure (runSteps run i)) script s
    (.passed out.report, out.world)
  | .handle step =>
    let out := (sizingHost h).run step s
    (.sizing out.1, out.2)
  | .declare o v => withEntry o v s fun k v s =>
    (.done, (h.registryHost .registry).declare k v s)
  | .declareValidated o v hook => withEntry o v s fun k v s =>
    let installed := s.installHook i hook
    answer ((h.registryHost .registry).declareValidated k v installed.1 installed.2)
  | .isDeclared o => withOption o s fun k s => (.flag ((h.config s).registry.contains k), s)
  | .registryGet o => withOption o s fun k s => (shown .value ((h.config s).registry.get? k), s)
  | .registrySet o v => withEntry o v s fun k v s =>
    answer? ((h.registryHost .registry).trySet k v s)
  | .layer kind =>
    match findLayer kind (h.config s) with
    | none => (.absent, s)
    | some slot => (.layer ((h.config s).layerName slot) (kind = .socket), s)
  | .layerSet kind o v => withEntry o v s fun k v s =>
    match findLayer kind (h.config s) with
    | none => (.absent, s)
    | some slot => answer? (h.trySetAt k v slot s)
  | .layerGet kind o => withOption o s fun k s =>
    match findLayer kind (h.config s) with
    | none => (.absent, s)
    | some slot => (shown .typed ((h.config s).tryGetAt k slot), s)
  | .layerCollect kind =>
    match findLayer kind (h.config s) with
    | none => (.absent, s)
    | some slot => (.map ((h.config s).collectAt .empty slot), s)
  | .auditWrites =>
    match (h.config s).custom? with
    | none => (.absent, s)
    | some layer => (.typedList layer.writes, s)
  | .socket setter => answer? (h.setSocket (socketChange setter) s)
  | .describe =>
    if 1 < (h.config s).registry.declared.length then (.absent, s)
    else (.text (h.config s).describe, s)
where
  addWritability (h : Host AuditLayer Session) (label : String) (reactions : List (Reaction Step))
      (s : Session) : Outcome × Session :=
    let out := s.subscribe i label reactions
    (.done, h.addWritabilityListener out.1 out.2)

/-- Perform a step, with calls of clients nested at most `depth` deep. A configuration that could
not be built answers nothing; one can only leave it for another. -/
def perform : Nat → Runner
  | 0, _, _, s => (.absent, s)
  | depth + 1, i, step, s =>
    match s.channel? i, step with
    | none, .use j => (.done, { s with current := j })
    | none, _ => (.absent, s)
    | some _, step => exec (perform depth) i step s

/-- Perform a step from outside completely, on the current configuration. -/
def run (step : Step) (s : Session) : Outcome × Session :=
  perform (step.weight + s.budget) s.current step s

def runAll (steps : List Step) (s : Session) : Session :=
  steps.foldl (fun s step => (run step s).2) s

end Session

end FlowControl
