import FlowControl.Option.Map

/-!
# The registry of declared options

Applications declare options of their own, each with a default and, if they like, a hook that
judges every value before it is stored. Only declared options are claimed. A hook is client code:
while it judges a value it may declare the same option again, with another hook or with none. So a
write asks once more before it stores: if the hook in force is no longer the one that was asked,
the new one is asked, and a value is stored only under the hook that accepted it.

Hooks are known by their numbers; two hooks are the same exactly if their numbers are.
-/

set_option autoImplicit false

namespace FlowControl

/-- A declared option: its current value and the hook that judges new ones. -/
structure Declared where
  key : OptionKey
  value : Value
  hook : Option Nat
deriving DecidableEq

structure Registry where
  declared : List Declared
deriving DecidableEq

namespace Registry

def empty : Registry := ⟨[]⟩

instance : Inhabited Registry := ⟨empty⟩

def find? (k : OptionKey) (r : Registry) : Option Declared :=
  r.declared.find? fun d => d.key.same k

def contains (k : OptionKey) (r : Registry) : Bool := (r.find? k).isSome

/-- The value of a declared option, whatever its type. -/
def value? (k : OptionKey) (r : Registry) : Option Value := (r.find? k).map (·.value)

def get? (k : OptionKey) (r : Registry) : Option Value :=
  (r.value? k).filter fun v => v.type = k.type

/-- Put a declaration in the place of the earlier one, or behind all others. -/
def putDeclared (d : Declared) : List Declared → List Declared
  | [] => [d]
  | d' :: rest => if d'.key.same d.key then d :: rest else d' :: putDeclared d rest

/-- The registry with an option declared, in place of any earlier declaration. -/
def put (d : Declared) (r : Registry) : Registry := ⟨putDeclared d r.declared⟩

/-- The registry with another value for a declared option; its hook stays. -/
def store (k : OptionKey) (v : Value) (r : Registry) : Registry :=
  ⟨r.declared.map fun d => if d.key.same k then { d with value := v } else d⟩

def collect (r : Registry) (m : OptionMap) : OptionMap :=
  r.declared.foldl (fun m d => m.insert d.key d.value) m

def describe (r : Registry) : String :=
  Text.mapping (r.declared.map fun d => (d.key.name, d.value.describe))

end Registry

structure RegistryHost (σ : Type) where
  registry : σ → Registry
  setRegistry : Registry → σ → σ
  /-- Ask a hook about a value; `some reason` refuses it. The hook may act on the world. -/
  check : Nat → Value → σ → Option String × σ
  /-- How many operations may still be started from inside callbacks. -/
  budget : σ → Nat

namespace RegistryHost

variable {σ : Type}

def judge (h : RegistryHost σ) (hook : Option Nat) (v : Value) (s : σ) : Option String × σ :=
  match hook with
  | none => (none, s)
  | some n => h.check n v s

def declare (h : RegistryHost σ) (k : OptionKey) (value : Value) (s : σ) : σ :=
  h.setRegistry ((h.registry s).put ⟨k, value, none⟩) s

/-- Declare an option with a hook, which must accept the default first. -/
def declareValidated (h : RegistryHost σ) (k : OptionKey) (value : Value) (hook : Nat) (s : σ) :
    Except ConfigError Unit × σ :=
  match h.check hook value s with
  | (some reason, s) => (.error (.illegalArgument k.name reason), s)
  | (none, s) => (.ok (), h.setRegistry ((h.registry s).put ⟨k, value, some hook⟩) s)

/-- Store a value once the hook in force has accepted it. `hook` is the one to ask; when another
hook is in force after that, the other one is asked in turn. -/
def storeJudged (h : RegistryHost σ) (k : OptionKey) (v : Value) (hook : Option Nat) (s : σ) :
    Option (Except ConfigError Unit) × σ :=
  match h.judge hook v s with
  | (some reason, after) => (some (.error (.illegalArgument k.name reason)), after)
  | (none, after) =>
    match (h.registry after).find? k with
    | none => (none, after)
    | some d =>
      if d.hook = hook then (some (.ok ()), h.setRegistry ((h.registry after).store k v) after)
      -- A hook changes only through an operation of a client, which has used up budget.
      else if h.budget after < h.budget s then h.storeJudged k v d.hook after
      else (none, after)
termination_by h.budget s

/-- Write a declared option; an option that is not declared is not claimed. -/
def trySet (h : RegistryHost σ) (k : OptionKey) (v : Value) (s : σ) :
    Option (Except ConfigError Unit) × σ :=
  match (h.registry s).find? k with
  | none => (none, s)
  | some d =>
    match k.expectType v with
    | .error e => (some (.error e), s)
    | .ok () => h.storeJudged k v d.hook s

end RegistryHost

end FlowControl
