/-
Settings: how the repository host is reached, and which files are analysed and how complexity is graded.

A settings file is TOML with the tables `github` and `analysis`. Every field that it leaves out keeps its default. A table
may also be written as an array of its fields' values in order.
-/
import ClassAtlas.Report.Band
import ClassAtlas.Settings.Error
import ClassAtlas.Text.Blank
import ClassAtlas.Toml.Reader

namespace ClassAtlas

open ClassAtlas.Report ClassAtlas.Text

namespace Settings

/-- version of the program -/
def programVersion : String := "0.1.0"

/-- how the repository host is reached -/
structure HostSettings where
  apiUrl : String := "https://api.github.com"
  userAgent : String := "repolens/" ++ programVersion
  timeoutSecs : Nat := 30
  token : Option String := none
deriving DecidableEq, Repr

/-- which files are analysed and how complexity is graded -/
structure AnalysisSettings where
  extension : String := ".java"
  thresholds : Thresholds := ⟨5, 10⟩
deriving DecidableEq, Repr

end Settings

/-- all that can be set -/
structure Settings where
  host : Settings.HostSettings := {}
  analysis : Settings.AnalysisSettings := {}
deriving DecidableEq, Repr

namespace Settings

/-! ## What a file says -/

structure HostPart where
  apiUrl : Option String := none
  userAgent : Option String := none
  timeoutSecs : Option Nat := none
  token : Option String := none
deriving DecidableEq, Repr

structure AnalysisPart where
  extension : Option String := none
  warn : Option Nat := none
  high : Option Nat := none
deriving DecidableEq, Repr

/-- the settings a file gives -/
structure Part where
  host : HostPart := {}
  analysis : AnalysisPart := {}
deriving DecidableEq, Repr

/-- the fields of a table, of an array of their values in order, or of a time, which has none of them -/
def recordFields (names : List String) : Toml.Value → Option (List (String × Toml.Value))
  | .table fields => some fields
  | .array items => some (names.zip items)
  | .time _ => some []
  | _ => none

def text : Toml.Value → Option String
  | .string s => some s
  | _ => none

def count : Toml.Value → Option Nat
  | .integer (.ofNat n) => some n
  | _ => none

/-- a field that may be left out but must be of its kind -/
def field {α : Type} (read : Toml.Value → Option α) (fields : List (String × Toml.Value)) (name : String) :
    Option (Option α) :=
  match fields.lookup name with
  | none => some none
  | some v => (read v).map some

def HostPart.read (v : Toml.Value) : Option HostPart := do
  let fields ← recordFields ["api_url", "user_agent", "timeout_secs", "token"] v
  return ⟨← field text fields "api_url", ← field text fields "user_agent", ← field count fields "timeout_secs",
    ← field text fields "token"⟩

def AnalysisPart.read (v : Toml.Value) : Option AnalysisPart := do
  let fields ← recordFields ["extension", "complexity_warn", "complexity_high"] v
  return ⟨← field text fields "extension", ← field count fields "complexity_warn", ← field count fields "complexity_high"⟩

/-- reads the text of a settings file -/
def Part.parse (s : String) : Option Part := do
  let fields ← Toml.parse s.toList
  let host ← field HostPart.read fields "github"
  let analysis ← field AnalysisPart.read fields "analysis"
  return ⟨host.getD {}, analysis.getD {}⟩

/-! ## Merging and checking -/

/-- a token that stands for none -/
def tokenPlaceholder : String := "YOUR_GITHUB_TOKEN_IF_NEEDED"

/-- the token without surrounding blanks; an empty one or the placeholder is none -/
def readToken (token : String) : Option String :=
  let t := String.ofList (trim token.toList)
  if t.isEmpty || t == tokenPlaceholder then none else some t

def dropSlashes (s : String) : String := String.ofList (dropEndWhile (· == '/') s.toList)

/-- the settings of a file, over the defaults -/
def Part.merge (p : Part) : Settings :=
  let host : HostSettings := {}
  let analysis : AnalysisSettings := {}
  { host :=
      { apiUrl := (p.host.apiUrl.map dropSlashes).getD host.apiUrl
        userAgent := p.host.userAgent.getD host.userAgent
        timeoutSecs := p.host.timeoutSecs.getD host.timeoutSecs
        token := p.host.token.bind readToken }
    analysis :=
      { extension := p.analysis.extension.getD analysis.extension
        thresholds := ⟨p.analysis.warn.getD analysis.thresholds.warn, p.analysis.high.getD analysis.thresholds.high⟩ } }

/-- a dot and at least one more character -/
def isExtension (s : String) : Bool := s.toList.head? == some '.' && 2 ≤ s.toList.length

/-- refuses settings that make no sense -/
def check (s : Settings) : Except SettingsError Settings :=
  if s.host.timeoutSecs == 0 then .error (.invalidValue "github.timeout_secs" "must be positive")
  else if !isExtension s.analysis.extension then .error (.invalidValue "analysis.extension" "must start with '.'")
  else if s.analysis.thresholds.high < s.analysis.thresholds.warn then
    .error (.invalidValue "analysis.complexity_warn" "must not exceed analysis.complexity_high")
  else .ok s

/-- the settings with another token -/
def withToken (s : Settings) (token : String) : Settings :=
  { s with host := { s.host with token := readToken token } }

end Settings

end ClassAtlas
