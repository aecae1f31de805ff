/-
Where settings come from: a file named on the command line, else by a variable, else the user's own; and a token from
a variable.
-/
import ClassAtlas.Files.Disk
import ClassAtlas.Settings.Basic

namespace ClassAtlas.Settings

open ClassAtlas.Files

/-- the variables of the environment that settings look at -/
structure Environment where
  /-- `REPOLENS_CONFIG` -/
  config : Option String := none
  /-- `GH_ACCESS_TOKEN` -/
  token : Option String := none
  /-- `HOME` -/
  home : Option String := none
deriving DecidableEq, Repr

/-- the file to load: the one given, else the one the variable names, else the user's own -/
def settingsPath (env : Environment) (given : Option String) : String :=
  (given <|> env.config).getD (join (join (env.home.getD "") ".config/repolens") "config.toml")

/-- the settings of a file that was read, or could not be -/
def ofRead (path : String) : Except String String → Except SettingsError Settings
  | .error detail => .error (.fileRead path detail)
  | .ok content =>
    match Part.parse content with
    | none => .error (.malformed path)
    | some p => p.merge.check

def loadFile (d : Disk) (path : String) : Except SettingsError Settings :=
  ofRead path (d.readText path)

/-- the settings with the token of the environment, if it gives one -/
def withEnvironment (s : Settings) (env : Environment) : Settings :=
  match env.token with
  | none => s
  | some t => s.withToken t

/-- the settings of what was found at the path, or the defaults if nothing was, with the token of the environment -/
def ofFound (path : String) (found : Option (Except String String)) (env : Environment) :
    Except SettingsError Settings := do
  let s ← found.elim (.ok {}) (ofRead path)
  return s.withEnvironment env

/-- what is found at a path -/
def found? (d : Disk) (path : String) : Option (Except String String) :=
  if d.holds path then some (d.readText path) else none

def load (d : Disk) (env : Environment) (given : Option String) : Except SettingsError Settings :=
  let path := settingsPath env given
  ofFound path (found? d path) env

end ClassAtlas.Settings
