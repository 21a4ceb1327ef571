import Mathlib.Data.List.TakeWhile
import FlowControl.Config.Host

/-!
# Steering a channel

A client steers the read side of a channel by three settings: the auto-read switch, the strategy and
the read limit. It may do so at any time, also from inside a read pass, and when the switch is
turned the listeners of the switch may steer in their turn. What they do is written down beforehand,
one turn for each call of a listener, whoever is called (`Steered.agenda`). Turns nest, and every
nested steer belongs to a turn that has been taken off the agenda, so no steer needs more depth than
the agenda is long (`Steered.run_eq`).

The world keeps a history of the steers, and nothing else that happened: `Steered.Follows` says that
the read side of the configuration follows from the one at the start and the steers since then,
whoever made them. What a series of steers leaves of each handle can then be said without a look at
the calls (`ReadSide.handleAt_afterAll`, `ReadSide.handleAt_installed`).
-/

set_option autoImplicit false

namespace FlowControl

/-! ## Steers -/

inductive Steer where
  | switch (on : Bool)
  | replace (strategy : Strategy)
  | limit (n : Int32)
deriving DecidableEq, Repr

namespace Steer

/-- The option that a steer sets. -/
def option : Steer → CoreOption
  | .switch _ => .autoRead
  | .replace _ => .sizing
  | .limit _ => .maxMessages

def value : Steer → Value
  | .switch on => .bool on
  | .replace strategy => .sizing strategy
  | .limit n => .i32 n

def switch? : Steer → Option Bool
  | .switch on => some on
  | _ => none

/-- The read limit that a steer sets. A limit that is not positive is refused. -/
def limit? : Steer → Option UInt32
  | .limit n => if 0 < n.toInt then some n.toInt.toNat.toUInt32 else none
  | _ => none

def strategy? : Steer → Option Strategy
  | .replace strategy => some strategy
  | _ => none

/-- What the switch was turned to last, if it was turned, and otherwise its value from before. -/
def lastSwitch (on : Bool) (xs : List Steer) : Bool := (xs.filterMap switch?).getLast?.getD on

/-- The last limit that was accepted, if any was, and otherwise the limit from before. -/
def lastLimit (limit : UInt32) (xs : List Steer) : UInt32 :=
  (xs.filterMap limit?).getLast?.getD limit

/-- How many strategies were installed. -/
def replacements (xs : List Steer) : Nat := (xs.filterMap strategy?).length

/-- The steers up to the next replacement of the strategy. -/
def untilReplaced (xs : List Steer) : List Steer := xs.takeWhile fun x => x.strategy? = none

end Steer

/-! ## The read side -/

/-- What steers are about: the switch, the strategy in use with its handle, and the handles of the
strategies that were replaced. -/
structure ReadSide where
  autoRead : Bool
  strategy : Strategy
  earlier : List RecvHandle
  handle : RecvHandle
deriving DecidableEq, Repr

namespace ReadSide

def after (p : ReadSide) : Steer → ReadSide
  | .switch on => { p with autoRead := on }
  | .replace strategy =>
    { p with
      strategy, earlier := p.earlier ++ [p.handle]
      handle := (RecvHandle.ofStrategy strategy).withLimit p.handle.limit }
  | .limit n => { p with handle := p.handle.withLimit ((Steer.limit n).limit?.getD p.handle.limit) }

def afterAll (p : ReadSide) (xs : List Steer) : ReadSide := xs.foldl after p

/-- Handle number `i`, counting the replaced ones first. -/
def handleAt (i : Nat) (p : ReadSide) : RecvHandle := p.earlier[i]?.getD p.handle

end ReadSide

/-! ## Series of steers -/

namespace Steer

theorem getLast?_filterMap_cons {α : Type} (f? : Steer → Option α) (a : α) (x : Steer)
    (xs : List Steer) : ((x :: xs).filterMap f?).getLast?.getD a
      = (xs.filterMap f?).getLast?.getD ((f? x).getD a) := by
  rw [List.filterMap_cons]
  cases f? x with
  | none => rfl
  | some b =>
    rw [List.getLast?_cons]
    rfl

theorem lastSwitch_cons (on : Bool) (x : Steer) (xs : List Steer) :
    lastSwitch on (x :: xs) = lastSwitch (x.switch?.getD on) xs :=
  getLast?_filterMap_cons switch? on x xs

/-- Nobody turns the switch on unless somebody does. -/
theorem lastSwitch_off {xs : List Steer} (hnever : .switch true ∉ xs) :
    lastSwitch false xs = false := by
  induction xs with
  | nil => rfl
  | cons x xs ih =>
    rw [List.mem_cons, not_or] at hnever
    obtain ⟨hx, hxs⟩ := hnever
    rw [lastSwitch_cons]
    cases x with
    | switch on =>
      cases on with
      | false => exact ih hxs
      | true => exact absurd rfl hx
    | replace strategy => exact ih hxs
    | limit n => exact ih hxs

theorem lastLimit_cons (limit : UInt32) (x : Steer) (xs : List Steer) :
    lastLimit limit (x :: xs) = lastLimit (x.limit?.getD limit) xs :=
  getLast?_filterMap_cons limit? limit x xs

theorem lastLimit_append (limit : UInt32) (xs ys : List Steer) :
    lastLimit limit (xs ++ ys) = lastLimit (lastLimit limit xs) ys := by
  induction xs generalizing limit with
  | nil => rfl
  | cons x xs ih => rw [List.cons_append, lastLimit_cons, lastLimit_cons, ih]

theorem replacements_split (before : List Steer) (strategy : Strategy) (after : List Steer) :
    replacements (before ++ .replace strategy :: after)
      = replacements before + 1 + replacements after := by
  simp only [replacements, List.filterMap_append, List.filterMap_cons, strategy?,
    List.length_append, List.length_cons]
  omega

theorem untilReplaced_of_replacements {xs : List Steer} (h : replacements xs = 0) :
    untilReplaced xs = xs := by
  refine List.takeWhile_eq_self_iff.2 fun x hx => ?_
  have hnone := List.filterMap_eq_nil_iff.1 (List.length_eq_zero_iff.1 h)
  exact decide_eq_true (hnone x hx)

end Steer

namespace ReadSide

open Steer

variable {p : ReadSide} {i : Nat}

theorem afterAll_cons (x : Steer) (xs : List Steer) :
    p.afterAll (x :: xs) = (p.after x).afterAll xs := rfl

theorem afterAll_append (xs ys : List Steer) :
    p.afterAll (xs ++ ys) = (p.afterAll xs).afterAll ys := List.foldl_append

/-- What each steer sets or leaves is in the end what the last one has set that did. -/
theorem view_afterAll {α : Type} (view : ReadSide → α) (f? : Steer → Option α)
    (hafter : ∀ p x, view (p.after x) = (f? x).getD (view p)) (xs : List Steer) :
    view (p.afterAll xs) = (xs.filterMap f?).getLast?.getD (view p) := by
  induction xs generalizing p with
  | nil => rfl
  | cons x xs ih => rw [afterAll_cons, ih, hafter, getLast?_filterMap_cons]

theorem limit_after (x : Steer) : (p.after x).handle.limit = x.limit?.getD p.handle.limit := by
  cases x <;> rfl

theorem limit_afterAll (xs : List Steer) :
    (p.afterAll xs).handle.limit = lastLimit p.handle.limit xs :=
  view_afterAll (·.handle.limit) limit? (fun _ => limit_after) xs

theorem length_afterAll (xs : List Steer) :
    (p.afterAll xs).earlier.length = p.earlier.length + replacements xs := by
  induction xs generalizing p with
  | nil => rfl
  | cons x xs ih =>
    rw [afterAll_cons, ih]
    cases x with
    | switch on => rfl
    | limit n => rfl
    | replace strategy =>
      simp only [after, replacements, strategy?, List.length_append, List.filterMap_cons,
        List.length_cons, List.length_nil]
      omega

theorem length_le_length_afterAll (xs : List Steer) :
    p.earlier.length ≤ (p.afterAll xs).earlier.length := by
  rw [length_afterAll]
  exact Nat.le_add_right _ _

theorem length_le_length_after (x : Steer) :
    p.earlier.length ≤ (p.after x).earlier.length := length_le_length_afterAll [x]

theorem strategy_after (x : Steer) : (p.after x).strategy = x.strategy?.getD p.strategy := by
  cases x <;> rfl

theorem strategy_afterAll (xs : List Steer) :
    (p.afterAll xs).strategy = (xs.filterMap strategy?).getLast?.getD p.strategy :=
  view_afterAll (·.strategy) strategy? (fun _ => strategy_after) xs

theorem autoRead_after (x : Steer) : (p.after x).autoRead = x.switch?.getD p.autoRead := by
  cases x <;> rfl

theorem autoRead_afterAll (xs : List Steer) :
    (p.afterAll xs).autoRead = lastSwitch p.autoRead xs :=
  view_afterAll (·.autoRead) switch? (fun _ => autoRead_after) xs

/-- The handle in use comes after all that were replaced. -/
theorem handleAt_length (p : ReadSide) : p.handleAt p.earlier.length = p.handle := by
  simp [handleAt]

/-- A handle that was replaced is left alone. -/
theorem handleAt_after_of_lt (hi : i < p.earlier.length) (x : Steer) :
    (p.after x).handleAt i = p.handleAt i := by
  cases x with
  | switch on => rfl
  | limit n => simp [handleAt, after, List.getElem?_eq_getElem hi]
  | replace strategy =>
    simp [handleAt, after, List.getElem?_append_left hi, List.getElem?_eq_getElem hi]

theorem handleAt_afterAll_of_lt (hi : i < p.earlier.length) (xs : List Steer) :
    (p.afterAll xs).handleAt i = p.handleAt i := by
  induction xs generalizing p with
  | nil => rfl
  | cons x xs ih =>
    have hlt : i < (p.after x).earlier.length := Nat.lt_of_lt_of_le hi (length_le_length_after x)
    rw [afterAll_cons, ih hlt, handleAt_after_of_lt hi]

/-- The handle in use takes the limits that are set until the strategy is replaced, and is left
alone from then on. -/
theorem handleAt_afterAll (xs : List Steer) :
    (p.afterAll xs).handleAt p.earlier.length =
      p.handle.withLimit (lastLimit p.handle.limit (untilReplaced xs)) := by
  induction xs generalizing p with
  | nil => exact handleAt_length p
  | cons x xs ih =>
    rw [afterAll_cons]
    cases x with
    | switch on =>
      rw [untilReplaced, List.takeWhile_cons_of_pos rfl, lastLimit_cons]
      exact ih
    | limit n =>
      rw [untilReplaced, List.takeWhile_cons_of_pos rfl, lastLimit_cons]
      exact ih
    | replace strategy =>
      have hlength : (p.after (.replace strategy)).earlier.length = p.earlier.length + 1 :=
        List.length_append
      have hhandle : (p.after (.replace strategy)).handleAt p.earlier.length = p.handle := by
        simp [handleAt, after]
      rw [handleAt_afterAll_of_lt (by omega), hhandle, untilReplaced,
        List.takeWhile_cons_of_neg Bool.false_ne_true]
      rfl

/-- A strategy that was installed among the steers has a handle that stands where the strategy
begins and has seen no read. Its limit is the last one that was accepted before the next
replacement. -/
theorem handleAt_installed (before : List Steer) (strategy : Strategy) (after : List Steer) :
    (p.afterAll (before ++ .replace strategy :: after)).handleAt
        (p.earlier.length + replacements before + 1) =
      ⟨.ofStrategy strategy,
        ⟨lastLimit p.handle.limit (before ++ untilReplaced after), 0, 0⟩⟩ := by
  have hlength : ((p.afterAll before).after (.replace strategy)).earlier.length
      = p.earlier.length + replacements before + 1 := by
    rw [← length_afterAll]
    exact List.length_append
  rw [afterAll_append, afterAll_cons, ← hlength, handleAt_afterAll, limit_after, limit_afterAll,
    lastLimit_append]
  rfl

end ReadSide

/-! ## The world -/

/-- A configuration that is steered. -/
structure Steered (κ : Type) where
  config : Config κ
  earlier : List RecvHandle
  /-- What the listeners of the switch will do, call by call. -/
  agenda : List (List Steer)
  /-- All steers so far, whoever made them. -/
  history : List Steer

namespace Steered

variable {κ : Type}

def start (config : Config κ) (earlier : List RecvHandle) (agenda : List (List Steer)) :
    Steered κ := ⟨config, earlier, agenda, []⟩

def side (s : Steered κ) : ReadSide :=
  ⟨s.config.core.autoRead, s.config.core.strategy, s.earlier, s.config.core.handle⟩

/-- How a steer is made. -/
abbrev Runner (κ : Type) := Steer → Steered κ → Steered κ

def takeTurn (run : Runner κ) (turn : List Steer) (s : Steered κ) : Steered κ :=
  turn.foldl (fun s x => run x s) s

/-- A listener is called: the next turn of the agenda says what it does. -/
def act (run : Runner κ) (s : Steered κ) : Steered κ :=
  match s.agenda with
  | [] => s
  | turn :: rest => takeTurn run turn { s with agenda := rest }

/-- The world around the configuration, given how steers are made. Its log is not kept, and neither
listeners of the write signal nor hooks do anything. -/
def host (run : Runner κ) : Host κ (Steered κ) where
  config s := s.config
  setConfig config s := { s with config }
  note _ s := s
  writabilityChanged _ _ s := s
  autoReadChanged _ _ := act run
  check _ _ s := (none, s)
  earlier s := s.earlier
  setEarlier earlier s := { s with earlier }
  budget _ := 0

def exec (run : Runner κ) (x : Steer) (s : Steered κ) : Steered κ :=
  ((host run).setCore x.option x.value { s with history := s.history ++ [x] }).2

def perform : Nat → Runner κ
  | 0, _, s => s
  | depth + 1, x, s => exec (perform depth) x s

def run (x : Steer) (s : Steered κ) : Steered κ := perform (s.agenda.length + 1) x s

/-! ## What a steer does -/

/-- The later world has the read side that some steers leave of the earlier one's, and has them in
its history. Turns may have been taken off the agenda. -/
structure Follows (s s' : Steered κ) : Prop where
  steers : ∃ xs, s'.history = s.history ++ xs ∧ s'.side = s.side.afterAll xs
  agenda : s'.agenda.length ≤ s.agenda.length

variable {run run' : Runner κ} {s s' s'' : Steered κ}

theorem Follows.refl (s : Steered κ) : Follows s s :=
  ⟨⟨[], (List.append_nil _).symm, rfl⟩, Nat.le_refl _⟩

theorem Follows.trans (h : Follows s s') (h' : Follows s' s'') : Follows s s'' := by
  obtain ⟨xs, hhistory, hside⟩ := h.steers
  obtain ⟨ys, hhistory', hside'⟩ := h'.steers
  refine ⟨⟨xs ++ ys, ?_, ?_⟩, Nat.le_trans h'.agenda h.agenda⟩
  · rw [hhistory', hhistory, List.append_assoc]
  · rw [hside', hside, ReadSide.afterAll, ReadSide.afterAll, ReadSide.afterAll, List.foldl_append]

theorem follows_foldl {α : Type} {f : Steered κ → α → Steered κ} (hf : ∀ s a, Follows s (f s a))
    (as : List α) (s : Steered κ) : Follows s (as.foldl f s) :=
  List.foldlRecOn as f (.refl s) fun _ hs a _ => hs.trans (hf _ a)

/-- Turning the switch is told to its listeners, if it is turned at all. -/
theorem exec_switch (run : Runner κ) (on : Bool) (s : Steered κ) :
    exec run (.switch on) s =
      let history := s.history ++ [.switch on]
      if s.config.core.autoRead = on then { s with history }
      else
        let core := { s.config.core with autoRead := on }
        s.config.core.autoReadListeners.foldl (fun s _ => act run s)
          { s with history, config := { s.config with core } } := rfl

section Follows

variable (hrun : ∀ x s, Follows s (run x s))

include hrun

theorem takeTurn_follows (turn : List Steer) (s : Steered κ) : Follows s (takeTurn run turn s) :=
  follows_foldl (fun s x => hrun x s) turn s

theorem act_follows (s : Steered κ) : Follows s (act run s) := by
  unfold act
  split
  · exact .refl s
  case h_2 turn rest hagenda =>
    have htaken : Follows s { s with agenda := rest } :=
      ⟨⟨[], (List.append_nil _).symm, rfl⟩, by simp [hagenda]⟩
    exact htaken.trans (takeTurn_follows hrun turn _)

/-- A steer does what it says, and then only what the listeners do that it calls. -/
theorem exec_follows (x : Steer) (s : Steered κ) : Follows s (exec run x s) := by
  have hrecorded : ∀ s' : Steered κ, s'.history = s.history ++ [x] → s'.agenda = s.agenda →
      s'.side = s.side.after x → Follows s s' :=
    fun s' hhistory hagenda hside => ⟨⟨[x], hhistory, hside⟩, Nat.le_of_eq (congrArg _ hagenda)⟩
  cases x with
  | switch on =>
    rw [exec_switch]
    split
    case isTrue hsame =>
      refine hrecorded _ rfl rfl ?_
      rw [← hsame]
      rfl
    case isFalse =>
      refine Follows.trans (hrecorded _ ?_ ?_ ?_)
        (follows_foldl (fun s _ => act_follows hrun s) _ _)
      · rfl
      · rfl
      · rfl
  | replace strategy => exact hrecorded _ rfl rfl rfl
  | limit n =>
    show Follows s
      ((host run).tryCore (·.withMaxMessages n) { s with history := s.history ++ [.limit n] }).2
    by_cases hpos : 0 < n.toInt
    case pos =>
      have hlimit : (Steer.limit n).limit? = some n.toInt.toNat.toUInt32 := if_pos hpos
      rw [Host.tryCore, Core.withMaxMessages, Core.positive, if_neg (Int.not_le.2 hpos)]
      refine hrecorded _ rfl rfl ?_
      rw [ReadSide.after, hlimit]
      rfl
    case neg =>
      have hlimit : (Steer.limit n).limit? = none := if_neg hpos
      rw [Host.tryCore, Core.withMaxMessages, Core.positive, if_pos (Int.not_lt.1 hpos)]
      refine hrecorded _ rfl rfl ?_
      rw [ReadSide.after, hlimit]
      rfl

end Follows

theorem perform_follows (depth : Nat) (x : Steer) (s : Steered κ) :
    Follows s (perform depth x s) := by
  induction depth generalizing x s with
  | zero => exact .refl s
  | succ depth ih => exact exec_follows ih x s

theorem run_follows (x : Steer) (s : Steered κ) : Follows s (Steered.run x s) :=
  perform_follows _ x s

/-! ## Depth -/

section Depth

variable {bound : Nat} (hrun : ∀ x s, Follows s (run x s))
  (hagree : ∀ x s, s.agenda.length < bound → run x s = run' x s)

include hrun hagree

theorem takeTurn_congr (turn : List Steer) (hs : s.agenda.length < bound) :
    takeTurn run turn s = takeTurn run' turn s := by
  induction turn generalizing s with
  | nil => rfl
  | cons x turn ih =>
    show takeTurn run turn (run x s) = takeTurn run' turn (run' x s)
    rw [← hagree x s hs]
    exact ih (Nat.lt_of_le_of_lt (hrun x s).agenda hs)

/-- A listener takes its turn off the agenda before it steers. -/
theorem act_congr (hs : s.agenda.length ≤ bound) : act run s = act run' s := by
  unfold act
  split
  · rfl
  case h_2 turn rest hagenda =>
    refine takeTurn_congr hrun hagree turn ?_
    rw [hagenda, List.length_cons] at hs
    exact hs

theorem callListeners_congr (listeners : List Nat) (hs : s.agenda.length ≤ bound) :
    listeners.foldl (fun s _ => act run s) s = listeners.foldl (fun s _ => act run' s) s := by
  induction listeners generalizing s with
  | nil => rfl
  | cons l rest ih =>
    rw [List.foldl_cons, List.foldl_cons, ← act_congr hrun hagree hs]
    exact ih (Nat.le_trans (act_follows hrun s).agenda hs)

theorem exec_congr (x : Steer) (hs : s.agenda.length ≤ bound) : exec run x s = exec run' x s := by
  cases x with
  | replace strategy => rfl
  | limit n => rfl
  | switch on =>
    rw [exec_switch, exec_switch]
    split
    · rfl
    · exact callListeners_congr hrun hagree _ hs

end Depth

/-- More depth than the agenda is long makes no difference. -/
theorem perform_succ {depth : Nat} (x : Steer) (hs : s.agenda.length < depth) :
    perform (depth + 1) x s = perform depth x s := by
  induction depth generalizing x s with
  | zero => exact absurd hs (Nat.not_lt_zero _)
  | succ depth ih =>
    exact exec_congr (perform_follows _) (fun x s hlt => ih x (by omega)) x (Nat.le_refl _)

theorem perform_of_lt {depth : Nat} (x : Steer) (hs : s.agenda.length < depth) :
    perform depth x s = Steered.run x s := by
  induction depth with
  | zero => exact absurd hs (Nat.not_lt_zero _)
  | succ depth ih =>
    rcases Nat.lt_or_eq_of_le (Nat.le_of_lt_succ hs) with hlt | rfl
    · exact (perform_succ x hlt).trans (ih hlt)
    · rfl

/-- So a steer is made as it says, and the steers of its listeners are made in the same way. -/
theorem run_eq (x : Steer) (s : Steered κ) : Steered.run x s = exec Steered.run x s :=
  exec_congr (perform_follows _) (fun x _ hs => perform_of_lt x hs) x (Nat.le_refl _)

end Steered

end FlowControl
