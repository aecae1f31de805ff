/-
Why settings cannot be loaded.
-/

namespace ClassAtlas.Settings

inductive SettingsError where
  | fileRead (path detail : String)
  | malformed (path : String)
  | invalidValue (field reason : String)
deriving DecidableEq, Repr

def SettingsError.message : SettingsError → String
  | .fileRead path detail => s!"Failed to read file '{path}': {detail}"
  | .malformed path => s!"Failed to parse TOML from file '{path}'"
  | .invalidValue field reason => s!"Configuration value '{field}' is invalid: {reason}"

end ClassAtlas.Settings
