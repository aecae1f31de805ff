/-
Why the program ends in failure, and with which exit code.
-/
import ClassAtlas.Run.Error
import ClassAtlas.Settings.Error

namespace ClassAtlas.CommandLine

open ClassAtlas.Run ClassAtlas.Settings

inductive Failure where
  | settings (error : SettingsError)
  | run (error : RunError)
  /-- reading or writing failed during an activity -/
  | inputOutput (activity detail : String)
  | other (reason : String)
deriving DecidableEq, Repr

namespace Failure

def message : Failure → String
  | .settings e => "Configuration error: " ++ e.message
  | .run e => e.message
  | .inputOutput activity detail => s!"I/O error while {activity}: {detail}"
  | .other reason => s!"Application error: {reason}"

/-- a failure of reading or writing that names no activity -/
def ofInputOutput (detail : String) : Failure := .inputOutput "I/O operation failed" detail

/-- 2 for an address that is refused, 1 for anything else -/
def exitCode : Failure → Nat
  | .run (.invalidUrl _) => 2
  | _ => 1

end Failure

end ClassAtlas.CommandLine
