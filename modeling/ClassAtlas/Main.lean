/-
The program as it runs: its arguments, the environment, files, the terminal and the network.

Nothing is decided here. Runs are driven by the answers that have arrived; where one waits, its request is sent, and the
run goes on when the answer is there. The shell waits for the next line and for answers at the same time.
-/
import ClassAtlas.CommandLine.Program
import ClassAtlas.Run.Want
import ClassAtlas.Web.Wire
import Std.Async.DNS
import Std.Async.TCP
import Std.Async.Timer
import Std.Time.DateTime.Timestamp

namespace ClassAtlas.Main

open ClassAtlas.CommandLine ClassAtlas.Files ClassAtlas.Report ClassAtlas.Repository ClassAtlas.Run ClassAtlas.Settings
open ClassAtlas.Text ClassAtlas.Web Std.Async Std.Net

/-! ## Network -/

/-- all bytes until the other side closes the connection -/
partial def receiveAll (socket : TCP.Socket.Client) (got : ByteArray) : Async ByteArray := do
  match ← socket.recv? 65536 with
  | some chunk => receiveAll socket (got ++ chunk)
  | none => return got

def socketAddress (ip : IPAddr) (port : Nat) : SocketAddress :=
  match ip with
  | .v4 a => .v4 ⟨a, port.toUInt16⟩
  | .v6 a => .v6 ⟨a, port.toUInt16⟩

/-- sends a text to an address and takes what comes back -/
def converse (text : String) (address : SocketAddress) : Async ByteArray := do
  let socket ← TCP.Socket.Client.mk
  socket.connect address
  socket.send text.toUTF8
  receiveAll socket ByteArray.empty

/-- tries the addresses of a host in turn -/
def converseAny (text : String) (port : Nat) : List IPAddr → Async (Option ByteArray)
  | [] => return none
  | ip :: rest => do
    try return some (← converse text (socketAddress ip port))
    catch _ => converseAny text port rest

/-- the name of a host without the brackets of a version 6 address -/
def bareHost (host : String) : String := String.ofList (host.toList.filter fun c => c != '[' && c != ']')

/-- sends a request and waits for its response -/
def exchange (r : Request) : Async Exchange := do
  match r.address.endpoint? with
  | none => return .unreachable
  | some (host, port) =>
    try
      let ips ← DNS.getAddrInfo (bareHost host) ""
      match ← converseAny r.text port ips.toList with
      | none => return .unreachable
      | some bytes => return ((Response.ofBytes? bytes.toList).map .answered).getD .unreachable
    catch _ => return .unreachable

def giveUpAfter (seconds : Nat) : Async Exchange := do
  sleep (.ofNat (seconds * 1000))
  return .unreachable

/-- like `exchange`, but gives up after a time -/
def exchangeWithin (seconds : Nat) (r : Request) : IO Exchange :=
  (Async.race (exchange r) (giveUpAfter seconds)).block

/-- the answers that have arrived, as a transport -/
def arrivedTransport (arrived : List (Request × Exchange)) : Transport := fun r => (arrived.lookup r).getD .waiting

/-! ## Files and environment -/

/-- an input or output error as it is shown -/
def errorDetail : IO.Error → String
  | .noFileOrDirectory .. => FileFault.notFound.message
  | .inappropriateType _ 20 _ => FileFault.notDirectory.message
  | .inappropriateType _ 21 _ => FileFault.isDirectory.message
  | e => toString e

def environment : IO Environment := do
  return ⟨← IO.getEnv "REPOLENS_CONFIG", ← IO.getEnv "GH_ACCESS_TOKEN", ← IO.getEnv "HOME"⟩

/-- what is found at a path: nothing, a text, or something that cannot be read as one -/
def findText (path : String) : IO (Option (Except String String)) := do
  try
    let bytes ← IO.FS.readBinFile path
    return some ((Utf8.decode bytes.toList).mapError fun _ => Disk.notText)
  catch
    | .noFileOrDirectory .. => return none
    | .inappropriateType _ 20 _ => return none
    | e => return some (.error (errorDetail e))

/-- what writing a file fails with, if it fails -/
def writeText (path text : String) : IO (Option String) := do
  try
    IO.FS.writeBinFile path text.toUTF8
    return none
  catch e => return some (errorDetail e)

/-! ## Terminal -/

/-- how the program talks: in colours or without, with status lines or without, and those with the time or without -/
structure Voice where
  colours : Bool
  status : Bool
  timed : Bool

def Voice.find (verbose : Nat) : IO Voice := do
  let plain := (← IO.getEnv "NO_COLOR").isSome
  return ⟨(← (← IO.getStdout).isTty) && !plain, ← (← IO.getStderr).isTty, 0 < verbose⟩

/-- the time of day -/
def clock : IO String := do
  let now ← Std.Time.Timestamp.now
  return ((Moment.of? now.toSecondsSinceUnixEpoch.val 0).map Moment.clock).getD ""

def say (voice : Voice) (message : String) : IO Unit := do
  if voice.status then
    let time ← if voice.timed then some <$> clock else pure none
    IO.eprintln (Tint.dimmed.paint voice.colours (statusLine time message))

def write (text : String) : IO Unit := do
  let out ← IO.getStdout
  out.putStr text
  out.flush

/-- reports a failure and gives the exit code -/
def report (f : Failure) : IO UInt32 := do
  IO.eprintln ("Application failed: " ++ f.message)
  return f.exitCode.toUInt32

/-! ## Analysing one address -/

/-- drives a run to its end, sending what it waits for -/
partial def driveRun (voice : Voice) (settings : Settings) (client : Client) (url : String)
    (arrived : List (Request × Exchange)) (phase : Phase) : IO Outcome := do
  let host := client.host (arrivedTransport arrived)
  let (phase, out) := phase.drive ⟨host, settings.analysis.extension, url, true, false⟩
  for o in out do
    if let .say message := o then say voice message
  match phase.outcome?, phase.want?.bind (Want.request? client) with
  | some outcome, _ => return outcome
  | none, some request =>
    let answer ← exchangeWithin settings.host.timeoutSecs request
    driveRun voice settings client url ((request, answer) :: arrived) phase
  | none, none => return .error .crashed

def analyzeOne (voice : Voice) (settings : Settings) (client : Client) (args : AnalyzeArguments) : IO UInt32 := do
  match ← driveRun voice settings client args.url [] .opening with
  | .error e => report (.run e)
  | .ok a =>
    let fault ← args.umlOut.elim (pure none) fun path =>
      return (← writeText path a.diagram.text).map fun detail => Failure.inputOutput ("writing " ++ path) detail
    match fault with
    | some f => report f
    | none =>
      write (analysisText ⟨voice.colours, settings.analysis.thresholds⟩ args a)
      return 0

/-! ## The shell -/

/-- what the shell waits for -/
inductive Happening where
  /-- a line without its line feed, or the end of the input -/
  | typed (line : Option (List UInt8))
  | arrived (generation : Nat) (request : Request) (answer : Exchange)

/-- reads up to a line feed -/
partial def readLine (input : IO.FS.Stream) (got : List UInt8) : IO (Option (List UInt8)) := do
  let chunk ← input.read 1
  match chunk.toList with
  | [] => return if got.isEmpty then none else some got.reverse
  | b :: _ => if b == 10 then return some got.reverse else readLine input (b :: got)

abbrev Pending := Task (Except IO.Error Happening)

def awaitLine : IO Pending := do
  let input ← IO.getStdin
  IO.asTask (do return .typed (← readLine input [])) .dedicated

/-- the shell with what it waits for -/
structure Live where
  shell : Shell := {}
  typing : Pending
  /-- the request under way, with the generation of its run -/
  asking : Option (Nat × Request × Pending) := none
  /-- the answers to the current run -/
  answers : List (Request × Exchange) := []

def sayAll (voice : Voice) (events : List Event) : IO Unit := do
  for e in events do
    if let .status _ message := e then say voice message

/-- lets the runs go on, and sends the request the current one waits for -/
def Live.goOn (voice : Voice) (settings : Settings) (client : Client) (s : Live) : IO Live := do
  let (shell, events) := s.shell.settle (client.host (arrivedTransport s.answers)) settings.analysis.extension
  sayAll voice events
  let generation := shell.session.system.generation
  let current := shell.session.system.runs.find? fun r => r.generation == generation
  match current.bind fun r => r.phase.want?.bind (Want.request? client) with
  | none => return { s with shell }
  | some request =>
    if s.asking.any fun (g, r, _) => g == generation && r == request then return { s with shell }
    else
      let ask : IO Happening := do
        return .arrived generation request (← exchangeWithin settings.host.timeoutSecs request)
      let task ← IO.asTask ask .dedicated
      return { s with shell, asking := some (generation, request, task) }

/-- handles one happening after another until the shell ends -/
partial def shellLoop (voice : Voice) (settings : Settings) (client : Client) (s : Live) : IO UInt32 := do
  match ← IO.waitAny (s.typing :: (s.asking.map (·.2.2)).toList) (by simp) with
  | .error e => report (.inputOutput "reading stdin" (errorDetail e))
  | .ok (.typed none) => return 0
  | .ok (.typed (some bytes)) =>
    let before := s.shell.session.system.generation
    let (shell, out, events, flow) := s.shell.line ⟨voice.colours, settings.analysis.thresholds⟩ bytes
    write out
    sayAll voice events
    match flow with
    | .stop => return 0
    | .fail f => report f
    | .goOn =>
      let answers := if shell.session.system.generation == before then s.answers else []
      let s ← Live.goOn voice settings client { s with shell, answers, typing := ← awaitLine }
      shellLoop voice settings client s
  | .ok (.arrived generation request answer) =>
    let isCurrent := generation == s.shell.session.system.generation
    let answers := if isCurrent then (request, answer) :: s.answers else s.answers
    let s ← Live.goOn voice settings client { s with answers, asking := none }
    shellLoop voice settings client s

def runShell (voice : Voice) (settings : Settings) (client : Client) : IO UInt32 := do
  write (ShellCommand.helpText ++ "\n")
  shellLoop voice settings client { typing := ← awaitLine }

/-! ## The program -/

/-- answers arguments that are not carried out -/
def refuse (e : ArgumentsError) : IO UInt32 := do
  write e.output
  if e.exitCode != 0 then IO.eprint usageText
  return e.exitCode.toUInt32

def runProgram (arguments : List String) : IO UInt32 := do
  match Arguments.parse arguments with
  | .error e => refuse e
  | .ok args =>
    let env ← environment
    match prepare env (← findText (settingsPath env args.config)) args with
    | .error f => report f
    | .ok (settings, client) =>
      let voice ← Voice.find args.verbose
      match args.command with
      | .analyze a => analyzeOne voice settings client a
      | .shell => runShell voice settings client

end ClassAtlas.Main

def main (arguments : List String) : IO UInt32 := ClassAtlas.Main.runProgram arguments
