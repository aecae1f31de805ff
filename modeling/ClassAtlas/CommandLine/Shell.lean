/-
The interactive shell: one command per line, until the input ends or a command ends it.

Runs go on in the background. A command that starts one does not wait for it, and what is shown is the last published
analysis.
-/
import ClassAtlas.CommandLine.Display
import ClassAtlas.CommandLine.Failure
import ClassAtlas.CommandLine.ShellCommand
import ClassAtlas.Report.Lookup
import ClassAtlas.Run.Session
import ClassAtlas.Text.Utf8

namespace ClassAtlas.CommandLine

open ClassAtlas.Report ClassAtlas.Run ClassAtlas.Text

structure Shell where
  session : Session := {}
  /-- the folder that restricts the grid -/
  folder : Option String := none

/-- what happens after a line -/
inductive Flow where
  | goOn
  | stop
  | fail (f : Failure)
deriving DecidableEq, Repr

namespace Shell

def noResult : String := "No result yet.\n"

def folderNotice : Option String → String
  | some f => s!"Folder filter: {f}\n"
  | none => "Folder filter cleared.\n"

/-- the file that a path names in an analysis -/
def fileText (style : Style) (a : Analysis) (path : String) : String :=
  match findFile a path with
  | some (r, c) => renderFile r c style.thresholds
  | none => s!"No analyzed file matches {path}\n"

/-- what a command that only shows something prints -/
def shown (s : Shell) (present : Analysis → String) : String :=
  match s.session.system.store with
  | some a => present a
  | none => noResult

/-- carries out a command: the shell after it, what it prints, the events it causes, what happens next -/
def obey (style : Style) (s : Shell) : ShellCommand → Shell × String × List Event × Flow
  | .analyze url =>
    let (session, events) := s.session.analyze url
    ({ s with session }, "", events, .goOn)
  | .reload =>
    let (session, events) := s.session.reload
    ({ s with session }, "", events, .goOn)
  | .clear =>
    let (session, events) := s.session.clear
    ({ s with session }, "", events, .goOn)
  | .show choice => (s, s.shown fun a => viewsText style a s.folder choice, [], .goOn)
  | .showFile path =>
    if path.isEmpty then (s, "Usage: show file <path>\n", [], .goOn)
    else (s, s.shown fun a => fileText style a path, [], .goOn)
  | .folder f => ({ s with folder := f }, folderNotice f, [], .goOn)
  | .help => (s, ShellCommand.helpText ++ "\n", [], .goOn)
  | .exit => (s, "", [], .stop)
  | .empty => (s, "", [], .goOn)
  | .unknown line => (s, s!"Unknown command: {line}\n", [], .goOn)

/-- a line without a carriage return at its end -/
def dropReturn (line : List UInt8) : List UInt8 := if line.getLast? == some 13 then line.dropLast else line

/-- reads a line, without its line feed, and carries it out; a line that is no text ends the shell -/
def line (style : Style) (s : Shell) (bytes : List UInt8) : Shell × String × List Event × Flow :=
  match Utf8.decode (dropReturn bytes) with
  | .ok text => s.obey style (ShellCommand.parse text)
  | .error f => (s, "", [], .fail (.inputOutput "reading stdin" f.message))

/-- lets every run go on until it ends or waits -/
def settle (host : Repository.Host) (extension : String) (s : Shell) : Shell × List Event :=
  let (session, events) := s.session.settle host extension
  ({ s with session }, events)

/-- lines one after another, the runs settled after each: what all of them print, and how it ends -/
def lines (style : Style) (host : Repository.Host) (extension : String) (s : Shell) :
    List (List UInt8) → Shell × String × Flow
  | [] => (s, "", .goOn)
  | bytes :: rest =>
    let (s, out, _, flow) := s.line style bytes
    match flow with
    | .goOn =>
      let (s, more, flow) := lines style host extension (s.settle host extension).1 rest
      (s, out ++ more, flow)
    | _ => (s, out, flow)

end Shell

/-- the lines of an input; what follows the last line feed is a line if it is not empty -/
def inputLines (input : List UInt8) : List (List UInt8) :=
  let ls := input.splitOnP (· == 10)
  if ls.getLast? == some [] then ls.dropLast else ls

end ClassAtlas.CommandLine
