/-!
# Configuration errors

Every way in which a configuration call can fail, as a cause with the data that names the culprit.
The wording, the stable code and the question whether another layer might still help are functions
of the cause.
-/

set_option autoImplicit false

namespace FlowControl

/-- Why a configuration call failed. A call that fails leaves the setting it was about as it was. -/
inductive ConfigError where
  /-- No layer of the configuration claims the option. -/
  | unsupportedOption (option : String)
  /-- The option is known, but the value breaks its rule. -/
  | illegalArgument (option reason : String)
  /-- The low mark would end up above the high mark. -/
  | waterMarkOrder (low high : UInt32)
  /-- The name already belongs to an option. -/
  | nameConflict (name : String)
  /-- The name belongs to an option of another value type. -/
  | typeMismatch (name registered requested : String)
  /-- A declarative profile could not be read. -/
  | invalidProfile (reason : String)
deriving DecidableEq, Repr, Inhabited

namespace ConfigError

def message : ConfigError → String
  | .unsupportedOption option =>
    "channel option `" ++ option ++ "` is not supported by this configuration"
  | .illegalArgument option reason =>
    "illegal value for channel option `" ++ option ++ "`: " ++ reason
  | .waterMarkOrder low high =>
    "write buffer water marks out of order: low=" ++ toString low.toNat ++
      " must not exceed high=" ++ toString high.toNat
  | .nameConflict name => "channel option `" ++ name ++ "` is already registered"
  | .typeMismatch name registered requested =>
    "channel option `" ++ name ++ "` is registered as `" ++ registered ++
      "`, requested as `" ++ requested ++ "`"
  | .invalidProfile reason => "invalid channel profile: " ++ reason

/-- The code by which logs and alerts group errors; it depends on the cause alone. -/
def code : ConfigError → String
  | .unsupportedOption _ => "spark.channel.config.unsupported_option"
  | .illegalArgument _ _ => "spark.channel.config.illegal_argument"
  | .waterMarkOrder _ _ => "spark.channel.config.invalid_watermark_ordering"
  | .nameConflict _ => "spark.channel.config.option_name_conflict"
  | .typeMismatch _ _ _ => "spark.channel.config.option_type_mismatch"
  | .invalidProfile _ => "spark.channel.config.invalid_profile"

/-- Only an unclaimed option may succeed elsewhere, in a configuration with a more specific
layer. -/
def isRecoverable : ConfigError → Bool
  | .unsupportedOption _ => true
  | _ => false

/-- The cause given when a value is of another type than its option's. -/
def wrongType (option typeName : String) : ConfigError :=
  .illegalArgument option ("expected a value of type `" ++ typeName ++ "`")

end ConfigError

end FlowControl
