/-
The arguments of the program.

Options common to all commands may stand before or after the command; given on both sides, the later one counts. Arguments
are read from left to right and the first problem is the one reported. An option's value is checked when the next option
or the end is reached, and the options before a command are checked after the command's own.
-/
import ClassAtlas.CommandLine.View

namespace ClassAtlas.CommandLine

open ClassAtlas.Text

/-- why arguments are refused, or answered with a text of their own -/
inductive ArgumentsError where
  | displayHelp
  | displayHelpOnMissing
  | displayVersion
  | missingSubcommand
  | missingRequired
  | invalidSubcommand
  | unknownArgument
  | invalidValue
  | conflict
  | tooManyValues
deriving DecidableEq, Repr

/-- options that take a value -/
inductive ValueOption where
  | config
  | token
  | view
  | folder
  | umlOut
deriving DecidableEq, Repr

/-- options that take none -/
inductive Flag where
  | verbose
  | json
  | tree
  | help
  | version
deriving DecidableEq, Repr

/-- where an argument stands: before any command, or after one -/
inductive Level where
  | top
  | analyze
  | shell
deriving DecidableEq, Repr

inductive OptionName where
  | value (o : ValueOption)
  | flag (f : Flag)
deriving DecidableEq, Repr

/-- long options, without their dashes -/
def Level.long? (level : Level) (name : List Char) : Option OptionName :=
  match String.ofList name with
  | "verbose" => some (.flag .verbose)
  | "config" => some (.value .config)
  | "token" => some (.value .token)
  | "help" => some (.flag .help)
  | "version" => if level == .top then some (.flag .version) else none
  | "view" => if level == .analyze then some (.value .view) else none
  | "folder" => if level == .analyze then some (.value .folder) else none
  | "uml-out" => if level == .analyze then some (.value .umlOut) else none
  | "json" => if level == .analyze then some (.flag .json) else none
  | "tree" => if level == .analyze then some (.flag .tree) else none
  | _ => none

/-- short options, all of them flags -/
def Level.short? (level : Level) (c : Char) : Option Flag :=
  match c with
  | 'v' => some .verbose
  | 'h' => some .help
  | 'V' => if level == .top then some .version else none
  | _ => none

/-- the command a word names -/
def command? (word : String) : Option Level :=
  match word with
  | "analyze" => some .analyze
  | "a" => some .analyze
  | "shell" => some .shell
  | _ => none

/-- what has been given at one level -/
structure Given where
  verbose : Option Nat := none
  config : Option String := none
  token : Option String := none
  view : Option ViewChoice := none
  folder : Option String := none
  umlOut : Option String := none
  json : Bool := false
  tree : Bool := false
  url : Option String := none
deriving DecidableEq, Repr

namespace Given

/-- whether nothing has been given -/
def isEmpty (g : Given) : Bool := g == {}

def setPath (g : Given) (old : Option String) (set : Given → Given) (value : String) : Except ArgumentsError Given :=
  if old.isSome then .error .conflict else if value.isEmpty then .error .invalidValue else .ok (set g)

/-- records the value of an option: once only, a path not empty, a view by its name -/
def setValue (g : Given) (o : ValueOption) (value : String) : Except ArgumentsError Given :=
  match o with
  | .config => g.setPath g.config (fun g => { g with config := some value }) value
  | .umlOut => g.setPath g.umlOut (fun g => { g with umlOut := some value }) value
  | .token => if g.token.isSome then .error .conflict else .ok { g with token := some value }
  | .folder => if g.folder.isSome then .error .conflict else .ok { g with folder := some value }
  | .view =>
    if g.view.isSome then .error .conflict
    else
      match ViewChoice.ofName? value with
      | some v => .ok { g with view := some v }
      | none => .error .invalidValue

/-- records a flag: `verbose` counts up to 255, the others may stand once -/
def setFlag (g : Given) : Flag → Except ArgumentsError Given
  | .verbose => .ok { g with verbose := some (min 255 (g.verbose.getD 0 + 1)) }
  | .json => if g.json then .error .conflict else .ok { g with json := true }
  | .tree => if g.tree then .error .conflict else .ok { g with tree := true }
  | .help => .error .displayHelp
  | .version => .error .displayVersion

end Given

/-- an argument that is still to be recorded -/
inductive Pending where
  | nothing
  /-- an option, with its value once that has been read -/
  | option (o : ValueOption) (value : Option String)
  | url (value : String)
deriving DecidableEq, Repr

structure ReadState where
  given : Given := {}
  pending : Pending := .nothing
  /-- whether the one positional argument has been read -/
  positional : Bool := false
deriving DecidableEq, Repr

namespace ReadState

/-- whether an option waits for its value -/
def wantsValue (s : ReadState) : Bool :=
  match s.pending with
  | .option _ none => true
  | _ => false

/-- records what is pending; an option without its value is a problem -/
def resolve (s : ReadState) : Except ArgumentsError ReadState :=
  match s.pending with
  | .nothing => .ok s
  | .option _ none => .error .invalidValue
  | .option o (some v) => do return { s with given := ← s.given.setValue o v, pending := .nothing }
  | .url v => .ok { s with given := { s.given with url := some v }, pending := .nothing }

def flag (s : ReadState) (f : Flag) : Except ArgumentsError ReadState := do
  let s ← s.resolve
  return { s with given := ← s.given.setFlag f }

/-- an option whose value is still to come -/
def openOption (s : ReadState) (o : ValueOption) : Except ArgumentsError ReadState := do
  return { ← s.resolve with pending := .option o none }

/-- an option with its value attached -/
def attached (s : ReadState) (o : ValueOption) (v : String) : Except ArgumentsError ReadState := do
  let s ← s.resolve
  return { s with given := ← s.given.setValue o v }

end ReadState

/-- the name and the attached value of a long option -/
def splitLong (body : List Char) : List Char × Option (List Char) :=
  match body.dropWhile fun c => c != '=' with
  | [] => (body, none)
  | _ :: v => (body.takeWhile fun c => c != '=', some v)

def readLong (level : Level) (s : ReadState) (body : List Char) : Except ArgumentsError ReadState :=
  let (name, value) := splitLong body
  match level.long? name, value with
  | none, _ => .error .unknownArgument
  | some (.value o), none => s.openOption o
  | some (.value o), some v => s.attached o (String.ofList v)
  | some (.flag f), none => s.flag f
  | some (.flag _), some _ => .error .tooManyValues

/-- a cluster of short flags -/
def readShort (level : Level) (s : ReadState) : List Char → Except ArgumentsError ReadState
  | [] => .ok s
  | c :: r =>
    match level.short? c with
    | none => .error .unknownArgument
    | some f => do readShort level (← s.flag f) r

/-- a word that is no option: the address, after `analyze`; otherwise a problem -/
def readWord (level : Level) (trailing : Bool) (s : ReadState) (word : String) : Except ArgumentsError ReadState :=
  match level with
  | .top => .error (if trailing then .unknownArgument else .invalidSubcommand)
  | .shell => .error .unknownArgument
  | .analyze =>
    if s.positional then .error .unknownArgument
    else do return { ← s.resolve with pending := .url word, positional := true }

/-- everything after `--` is a word -/
def readTrailing (level : Level) (s : ReadState) : List String → Except ArgumentsError ReadState
  | [] => .ok s
  | word :: rest => do readTrailing level (← readWord level true s word) rest

/-- one argument: an option, the value of one, or a word -/
def readArgument (level : Level) (s : ReadState) (arg : String) : Except ArgumentsError ReadState :=
  match arg.toList with
  | '-' :: '-' :: c :: body => readLong level s (c :: body)
  | '-' :: c :: body => readShort level s (c :: body)
  | _ =>
    match s.pending with
    | .option o none => .ok { s with pending := .option o (some arg) }
    | _ => readWord level false s arg

/-- the arguments of a command -/
def readCommand (level : Level) (s : ReadState) : List String → Except ArgumentsError ReadState
  | [] => .ok s
  | arg :: rest =>
    if arg == "--" then readTrailing level s rest
    else do readCommand level (← readArgument level s arg) rest

/-- what follows `help`: the name of one command, or nothing -/
def readHelp : List String → ArgumentsError
  | [] => .displayHelp
  | [word] => if (command? word).isSome || word == "help" then .displayHelp else .invalidSubcommand
  | _ => .invalidSubcommand

/-- the arguments before the command, then the command with its own -/
def readTop (s : ReadState) :
    List String → Except ArgumentsError (ReadState × Option (Level × ReadState))
  | [] => .ok (s, none)
  | arg :: rest =>
    if !s.wantsValue && arg == "help" then .error (readHelp rest)
    else
      match if s.wantsValue then none else command? arg with
      | some level => do
        let c ← (← readCommand level {} rest).resolve
        if level == .analyze && c.given.url.isNone then throw .missingRequired
        return (s, some (level, c))
      | none =>
        if arg == "--" then do return (← readTrailing .top s rest, none)
        else do readTop (← readArgument .top s arg) rest

/-- what `analyze` is asked to do -/
structure AnalyzeArguments where
  url : String
  view : ViewChoice := .all
  folder : Option String := none
  json : Bool := false
  umlOut : Option String := none
  tree : Bool := false
deriving DecidableEq, Repr

inductive Command where
  | analyze (args : AnalyzeArguments)
  | shell
deriving DecidableEq, Repr

structure Arguments where
  verbose : Nat
  config : Option String
  token : Option String
  command : Command
deriving DecidableEq, Repr

/-- the command as given -/
def Given.command (g : Given) : Level → Command
  | .analyze =>
    .analyze ⟨g.url.getD "", g.view.getD .all, g.folder, g.json, g.umlOut, g.tree⟩
  | _ => .shell

/-- reads the arguments that follow the program's name -/
def Arguments.parse (args : List String) : Except ArgumentsError Arguments := do
  let (s, command) ← readTop {} args
  let top := (← s.resolve).given
  match command with
  | none => throw (if top.isEmpty then .displayHelpOnMissing else .missingSubcommand)
  | some (level, c) =>
    let own := c.given
    return ⟨(own.verbose <|> top.verbose).getD 0, own.config <|> top.config, own.token <|> top.token, own.command level⟩

end ClassAtlas.CommandLine
