import FlowControl.Proofs.Registry.Declared

/-!
# Registry sessions

A registry together with the clients that use it: a list of steps from outside, and hooks that take
further steps of the same kind while they judge a value. What a hook does is written down as a
script, call by call; when it is asked, the first part of its script leaves the queue and the steps
in it run at once, each of them completely, before the hook gives its verdict.

Every declaration with a hook makes a hook of its own. Hooks are numbered in the order in which they
are made, and what hook `n` says about a value is `verdict n`, no matter what has happened before.

The journal shows all the points where client code runs, with the registry as it is found there: a
client begins a step, a hook is asked, it has answered, a step has ended.
-/

set_option autoImplicit false

namespace FlowControl

inductive RegistryStep (t : OptionTable) where
  | declare (e : t.Entry)
  /-- Declare an option with a new hook, which has this script. -/
  | declareValidated (e : t.Entry) (script : List (List (RegistryStep t)))
  /-- Write a value, of any type, to an option. -/
  | write (k : t.Key) (v : Value)

/-- The value that a step is about. -/
def RegistryStep.value {t : OptionTable} : RegistryStep t → Value
  | .declare e => e.value
  | .declareValidated e _ => e.value
  | .write _ v => v

mutual

/-- How many steps a step contains, itself included. -/
def RegistryStep.weight {t : OptionTable} : RegistryStep t → Nat
  | .declare _ => 1
  | .declareValidated _ script => 1 + RegistryStep.scriptWeight script
  | .write _ _ => 1

def RegistryStep.scriptWeight {t : OptionTable} : List (List (RegistryStep t)) → Nat
  | [] => 0
  | steps :: rest => RegistryStep.listWeight steps + RegistryStep.scriptWeight rest

def RegistryStep.listWeight {t : OptionTable} : List (RegistryStep t) → Nat
  | [] => 0
  | step :: rest => step.weight + RegistryStep.listWeight rest

end

/-- What a step returns: nothing if the option is not declared. -/
abbrev RegistryOutcome := Option (Except ConfigError Unit)

inductive RegistryLine (t : OptionTable) where
  /-- The registry is new. -/
  | opened
  | began (step : RegistryStep t) (registry : Registry)
  | asked (hook : Nat) (value : Value) (registry : Registry)
  | answered (hook : Nat) (value : Value) (registry : Registry)
  | ended (step : RegistryStep t) (outcome : RegistryOutcome) (registry : Registry)

/-- The registry as a line of the journal shows it. -/
def RegistryLine.registry {t : OptionTable} : RegistryLine t → Registry
  | .opened => .empty
  | .began _ r => r
  | .asked _ _ r => r
  | .answered _ _ r => r
  | .ended _ _ r => r

structure RegistrySession (t : OptionTable) where
  registry : Registry
  /-- What the hooks still have in store, by their numbers. -/
  scripts : List (List (List (RegistryStep t)))
  journal : List (RegistryLine t)

namespace RegistrySession

variable {t : OptionTable}

def start : RegistrySession t := ⟨.empty, [], [.opened]⟩

/-- How many steps are still waiting in the scripts of the hooks. -/
def budget (s : RegistrySession t) : Nat :=
  s.scripts.foldr (fun script n => RegistryStep.scriptWeight script + n) 0

def write (line : RegistryLine t) (s : RegistrySession t) : RegistrySession t :=
  { s with journal := s.journal ++ [line] }

/-- Make a hook, which gets the next number. -/
def makeHook (script : List (List (RegistryStep t))) (s : RegistrySession t) :
    RegistrySession t :=
  { s with scripts := s.scripts ++ [script] }

/-- Take the first part of the script of a hook. -/
def takeScript (hook : Nat) (s : RegistrySession t) : List (RegistryStep t) × RegistrySession t :=
  match s.scripts[hook]? with
  | some (steps :: rest) => (steps, { s with scripts := s.scripts.set hook rest })
  | _ => ([], s)

/-- How steps are performed. -/
abbrev Runner (t : OptionTable) :=
  RegistryStep t → RegistrySession t → RegistryOutcome × RegistrySession t

/-- A client takes a step. -/
def take (run : Runner t) (step : RegistryStep t) (s : RegistrySession t) : RegistrySession t :=
  let out := run step (s.write (.began step s.registry))
  out.2.write (.ended step out.1 out.2.registry)

def takeAll (run : Runner t) (steps : List (RegistryStep t)) (s : RegistrySession t) :
    RegistrySession t :=
  steps.foldl (fun s step => take run step s) s

variable (verdict : Nat → Value → Option String)

def ask (run : Runner t) (hook : Nat) (v : Value) (s : RegistrySession t) :
    Option String × RegistrySession t :=
  let taken := (s.write (.asked hook v s.registry)).takeScript hook
  let after := takeAll run taken.1 taken.2
  (verdict hook v, after.write (.answered hook v after.registry))

/-- The session as a world that holds a registry, given how hooks run their steps. -/
def host (run : Runner t) : RegistryHost (RegistrySession t) where
  registry s := s.registry
  setRegistry registry s := { s with registry }
  check := ask verdict run
  budget s := s.budget

/-- Perform a step, given how hooks run theirs. -/
def exec (run : Runner t) : Runner t
  | .declare e, s => (some (.ok ()), (host verdict run).declare e.key e.value s)
  | .declareValidated e script, s =>
    let out := (host verdict run).declareValidated e.key e.value s.scripts.length
      (s.makeHook script)
    (some out.1, out.2)
  | .write k v, s => (host verdict run).trySet k.key v s

/-- Perform a step, with calls of hooks nested at most `depth` deep. -/
def perform : Nat → Runner t
  | 0, _, s => (none, s)
  | depth + 1, step, s => exec verdict (perform depth) step s

/-- Steps are taken from outside, each of them completely. -/
def runAll (steps : List (RegistryStep t)) (s : RegistrySession t) : RegistrySession t :=
  steps.foldl (fun s step => take (perform verdict (step.weight + s.budget)) step s) s

end RegistrySession

end FlowControl
