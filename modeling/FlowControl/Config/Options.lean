import FlowControl.Config.Host

/-!
# Setting options

One option at a time: the first layer that claims the key accepts or refuses the value. Or a batch:
the entries are independent, a refused one does not hold back the others, and the refusals are
returned together. The three entries that concern the water marks are the exception. They are taken
out first and merged into one pair of marks, which is judged and applied as a whole, so that it
does not matter in which order a low and a high mark would have been set.
-/

set_option autoImplicit false

namespace FlowControl

namespace Host

variable {κ σ : Type} [OptionLayer κ]

/-! ## One option -/

/-- Put the outcome of a write back into its place in the chain. -/
def storeLayer {α : Type} (h : Host κ σ) (i : Nat) (wrap : α → Layer κ)
    (outcome : Option (Except ConfigError α)) (s : σ) : Option (Except ConfigError Unit) × σ :=
  match outcome with
  | none => (none, s)
  | some (.error e) => (some (.error e), s)
  | some (.ok a) => (some (.ok ()), h.setConfig ((h.config s).setLayer i (wrap a)) s)

/-- Offer a value to the layer at a place of the chain: `none` if it does not claim the key. -/
def trySetAt (h : Host κ σ) (k : OptionKey) (v : Value) (slot : Slot) (s : σ) :
    Option (Except ConfigError Unit) × σ :=
  match slot with
  | .core =>
    match CoreOption.ofKey? k with
    | none => (none, s)
    | some o =>
      let out := h.setCore o v s
      (some out.1, out.2)
  | .layer i =>
    match (h.config s).layers[i]? with
    | none => (none, s)
    | some (.socket options) => h.storeLayer i .socket (options.trySet k v) s
    | some (.custom layer) => h.storeLayer i .custom (OptionLayer.trySet k v layer) s
    | some (.registry _) => (h.registryHost (.layer i)).trySet k v s
  | .registry => (h.registryHost .registry).trySet k v s

/-- Offer a value to the layers at the given places until one claims the key, and log the result.
The answer is `false` if none does. -/
def setThrough (h : Host κ σ) (k : OptionKey) (v : Value) :
    List Slot → σ → Except ConfigError Bool × σ
  | [], s => (.ok false, h.note (.optionUnsupported k.name) s)
  | slot :: rest, s =>
    let layer := (h.config s).layerName slot
    match h.trySetAt k v slot s with
    | (none, s) => h.setThrough k v rest s
    | (some (.ok ()), s) => (.ok true, h.note (.optionSet layer k.name) s)
    | (some (.error e), s) => (.error e, h.note (.optionRejected layer k.name e) s)

def setOption (h : Host κ σ) (k : OptionKey) (v : Value) (s : σ) : Except ConfigError Bool × σ :=
  h.setThrough k v (h.config s).chain s

/-! ## A batch of options -/

structure MarkRequest where
  low? : Option UInt32
  high? : Option UInt32
  /-- The entry that is blamed if the marks end up out of order. -/
  culprit : OptionKey

/-- Take an entry of a batch as a value of its option's type: `none` if there is no entry. -/
def typedEntry {α : Type} (o : CoreOption) (read : Value → Option α) (batch : OptionMap) :
    Except Rejection (Option α) :=
  match batch.find? o.key with
  | none => .ok none
  | some v =>
    match read v with
    | some a => .ok (some a)
    | none => .error ⟨o.key, .wrongType o.key.name o.key.type.fullName⟩

/-- What a batch asks of the water marks: nothing if it has no entry for them. The first entry of a
wrong type is refused, and nothing is asked then. -/
def markRequest (batch : OptionMap) : Except Rejection (Option MarkRequest) := do
  let pair ← typedEntry .marks
    (fun v => match v with | .waterMark m => some m | _ => none) batch
  let high ← typedEntry .highMark (fun v => match v with | .u32 n => some n | _ => none) batch
  let low ← typedEntry .lowMark (fun v => match v with | .u32 n => some n | _ => none) batch
  if pair.isNone && high.isNone && low.isNone then return none
  -- A single mark goes before that side of a pair.
  return some
    { low? := low.or (pair.map (·.low))
      high? := high.or (pair.map (·.high))
      culprit :=
        if high.isSome then CoreOption.highMark.key
        else if low.isSome then CoreOption.lowMark.key
        else CoreOption.marks.key }

/-- Apply what a batch asks of the water marks, in one step. -/
def applyMarks (h : Host κ σ) (batch : OptionMap) (s : σ) : Option Rejection × σ :=
  match markRequest batch with
  | .error rejection => (some rejection, s)
  | .ok none => (none, s)
  | .ok (some request) =>
    match h.gateHost.update request.low? request.high? s with
    | (.ok _, s) => (none, s)
    | (.error e, s) => (some ⟨request.culprit, e⟩, s)

def withoutMarks (batch : OptionMap) : OptionMap :=
  ((batch.erase CoreOption.marks.key).erase CoreOption.highMark.key).erase CoreOption.lowMark.key

def setEntry (h : Host κ σ) (entry : OptionKey × Value) (s : σ) : Option Rejection × σ :=
  match h.setOption entry.1 entry.2 s with
  | (.ok true, s) => (none, s)
  | (.ok false, s) => (some ⟨entry.1, .unsupportedOption entry.1.name⟩, s)
  | (.error e, s) => (some ⟨entry.1, e⟩, s)

def setEntries (h : Host κ σ) : List (OptionKey × Value) → σ → List Rejection × σ
  | [], s => ([], s)
  | entry :: rest, s =>
    let first := h.setEntry entry s
    let others := h.setEntries rest first.2
    (first.1.toList ++ others.1, others.2)

/-- Apply a batch: the water marks as a whole, then the other entries by option number. The
refusals are returned, that of the marks first. -/
def trySetOptions (h : Host κ σ) (batch : OptionMap) (s : σ) : List Rejection × σ :=
  let marks := h.applyMarks batch s
  let s := match marks.1 with
    | some r => h.note (.marksRejected r.key.name r.error) marks.2
    | none => marks.2
  let others := h.setEntries (withoutMarks batch).entries s
  (marks.1.toList ++ others.1, others.2)

def setOptions (h : Host κ σ) (batch : OptionMap) (s : σ) : Bool × σ :=
  let out := h.trySetOptions batch s
  (out.1.isEmpty, out.2)

/-! ## Socket settings -/

/-- Change the settings of the first layer with socket options: `none` if there is no such
layer. -/
def setSocket (h : Host κ σ) (f : SocketOptions → Except ConfigError SocketOptions) (s : σ) :
    Option (Except ConfigError Unit) × σ :=
  match (h.config s).socketSlot?, (h.config s).socketOptions? with
  | some i, some options => h.storeLayer i .socket (some (f options)) s
  | _, _ => (none, s)

end Host

end FlowControl
