import FlowControl.Document.Toml.Reader
import FlowControl.Profile.Data

/-!
# Where profiles come from

A profile is written as TOML text, or it is handed over as JSON data. The two notations differ in
one point: a list that stands for a record may have surplus items in TOML, and may not in JSON.
-/

set_option autoImplicit false

namespace FlowControl

open Document

inductive ProfileSource where
  | toml (text : String)
  | json (data : Data)

def ProfileSource.read : ProfileSource → Except ConfigError Profile
  | .toml text =>
    match Toml.read? text with
    | none => .error (.invalidProfile "the text is not a TOML document")
    | some d => profile .ignored d
  | .json d => profile .refused d
where
  profile (surplus : Data.Surplus) (d : Data) : Except ConfigError Profile :=
    match Profile.ofData? surplus d with
    | none => .error (.invalidProfile "the document does not describe a channel profile")
    | some p => .ok p

end FlowControl
