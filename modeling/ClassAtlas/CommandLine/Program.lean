/-
The program: from its arguments and surroundings to what it prints and how it ends.

It loads the settings, sets up the client of the repository host, and then analyses one address or reads commands. A
failure is reported by one message; where arguments are refused, nothing else happens.
-/
import ClassAtlas.CommandLine.Shell
import ClassAtlas.Repository.Client
import ClassAtlas.Run.Moment
import ClassAtlas.Settings.Load

namespace ClassAtlas.CommandLine

open ClassAtlas.Files ClassAtlas.Report ClassAtlas.Repository ClassAtlas.Run ClassAtlas.Settings
open ClassAtlas.Text ClassAtlas.Web

/-- what the program finds around it -/
structure Surroundings where
  disk : Disk
  environment : Environment := {}
  transport : Transport
  colours : Bool := false
  /-- what is typed -/
  input : List UInt8 := []
  /-- the time of day that status lines show -/
  clock : String := ""

/-- how the program ended -/
structure Ending where
  exitCode : Nat := 0
  output : String := ""
  /-- status lines, in order -/
  status : List String := []
  failure : Option Failure := none
  /-- why the arguments were refused, if they were -/
  refusal : Option ArgumentsError := none
  disk : Disk

/-- what the version option prints -/
def versionText : String := "repolens " ++ programVersion ++ "\n"

/-- how the program is called -/
def usageText : String :=
  "Usage: repolens [-v]... [--config <file>] [--token <token>] <command>\n\n" ++
  "Commands:\n" ++
  "  analyze <url>  analyze one GitHub folder and print the results\n" ++
  "                 [--view grid|dia|uml|all] [--folder <folder>] [--json] [--uml-out <file>] [--tree]\n" ++
  "  shell          interactive session reading commands from stdin\n"

/-- what arguments print that are not carried out -/
def ArgumentsError.output : ArgumentsError → String
  | .displayHelp => usageText
  | .displayVersion => versionText
  | _ => ""

/-- the exit code for arguments that are not carried out: texts asked for are no failure -/
def ArgumentsError.exitCode : ArgumentsError → Nat
  | .displayHelp => 0
  | .displayVersion => 0
  | _ => 2

/-- a request that gets no answer in time counts as one that reaches nobody -/
def patient (t : Transport) : Transport := fun r =>
  match t r with
  | .waiting => .unreachable
  | e => e

/-- one run that nothing interrupts: its outcome and its messages -/
def singleRun (host : Host) (extension url : String) : Outcome × List String :=
  let (phase, out) := Phase.opening.drive ⟨host, extension, url, true, false⟩
  (phase.outcome?.getD (.error .crashed), out.filterMap fun
    | .say m => some m
    | .publish _ => none)

/-- a status line as it is shown -/
def shownStatus (w : Surroundings) (verbose : Nat) (message : String) : String :=
  Tint.dimmed.paint w.colours (statusLine (if 0 < verbose then some w.clock else none) message)

def Ending.ofFailure (w : Surroundings) (f : Failure) : Ending :=
  { exitCode := f.exitCode, failure := some f, disk := w.disk }

/-- writes the diagram where asked for, then prints the analysis -/
def finish (w : Surroundings) (style : Style) (args : AnalyzeArguments) (a : Analysis) : Ending :=
  let printed := fun d => ({ output := analysisText style args a, disk := d } : Ending)
  match args.umlOut with
  | none => printed w.disk
  | some path =>
    match w.disk.write path (Utf8.encode a.diagram.text.toList) with
    | .ok d => printed d
    | .error f => .ofFailure w (.inputOutput ("writing " ++ path) f.message)

/-- analyses one address -/
def analyze (w : Surroundings) (settings : Settings) (client : Client) (verbose : Nat) (args : AnalyzeArguments) : Ending :=
  let (outcome, messages) := singleRun (client.host (patient w.transport)) settings.analysis.extension args.url
  let ending := match outcome with
    | .ok a => finish w ⟨w.colours, settings.analysis.thresholds⟩ args a
    | .error e => .ofFailure w (.run e)
  { ending with status := messages.map (shownStatus w verbose) }

/-- reads commands until the input ends or one of them ends it -/
def shell (w : Surroundings) (settings : Settings) (client : Client) : Ending :=
  let style : Style := ⟨w.colours, settings.analysis.thresholds⟩
  let (_, out, flow) :=
    Shell.lines style (client.host w.transport) settings.analysis.extension {} (inputLines w.input)
  let output := ShellCommand.helpText ++ "\n" ++ out
  match flow with
  | .fail f => { Ending.ofFailure w f with output }
  | _ => { output, disk := w.disk }

/-- the settings and the client, with which every command starts, from what was found at the settings' path -/
def prepare (env : Environment) (found : Option (Except String String)) (args : Arguments) :
    Except Failure (Settings × Client) := do
  let loaded ← (Settings.ofFound (settingsPath env args.config) found env).mapError .settings
  let settings := args.token.elim loaded loaded.withToken
  let client ← (Client.ofSettings settings.host).mapError fun e => .run (.fetch e)
  return (settings, client)

/-- the settings and the client that the surroundings give -/
def start (w : Surroundings) (args : Arguments) : Except Failure (Settings × Client) :=
  prepare w.environment (found? w.disk (settingsPath w.environment args.config)) args

/-- the whole program -/
def run (w : Surroundings) (arguments : List String) : Ending :=
  match Arguments.parse arguments with
  | .error e => { exitCode := e.exitCode, output := e.output, refusal := some e, disk := w.disk }
  | .ok args =>
    match start w args with
    | .error f => .ofFailure w f
    | .ok (settings, client) =>
      match args.command with
      | .analyze a => analyze w settings client args.verbose a
      | .shell => shell w settings client

end ClassAtlas.CommandLine
