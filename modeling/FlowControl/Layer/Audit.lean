import FlowControl.Layer.Custom

/-!
# An audit layer

A layer that claims a single option and remembers every value that was written to it. It can be
told to claim values of any type, to refuse all writes, and whether to show up in snapshots.
-/

set_option autoImplicit false

namespace FlowControl

/-- A layer that records the writes of one option. -/
structure AuditLayer where
  key : OptionKey
  /-- Claim values of other types than the option's as well. -/
  anyType : Bool
  /-- Put the last value into snapshots. -/
  collects : Bool
  /-- Refuse every write that is claimed. -/
  rejects : Bool
  writes : List Value
deriving DecidableEq

namespace AuditLayer

/-- The value read back: the last one written, or an empty text. -/
def last (l : AuditLayer) : Value := l.writes.getLastD (.string "")

instance : OptionLayer AuditLayer where
  name _ := "audit"
  trySet k v l :=
    if l.key.same k && (l.anyType || v.type = k.type) then
      if l.rejects then some (.error (.illegalArgument k.name "audit"))
      else some (.ok { l with writes := l.writes ++ [v] })
    else none
  tryGet k l := if l.key.same k then some l.last else none
  collect l m := if l.collects then m.insert l.key l.last else m
  describe l :=
    Text.record "AuditLayer"
      [("option", l.key.name), ("writes", Text.sequence (l.writes.map Value.describe))]

end AuditLayer

end FlowControl
