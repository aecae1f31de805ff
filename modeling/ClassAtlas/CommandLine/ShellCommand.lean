/-
The commands of the interactive shell, one per line.
-/
import ClassAtlas.CommandLine.View
import ClassAtlas.Report.Folder

namespace ClassAtlas.CommandLine

open ClassAtlas.Text ClassAtlas.Report

inductive ShellCommand where
  | analyze (url : String)
  | reload
  | clear
  | show (choice : ViewChoice)
  | showFile (path : String)
  | folder (filter : Option String)
  | help
  | exit
  | empty
  | unknown (line : String)
deriving DecidableEq, Repr

namespace ShellCommand

/-- what follows `show`: a file, a view by its name in any case, or all views -/
def parseShow (line rest : List Char) : ShellCommand :=
  if rest.isEmpty then .show .all
  else if rest == "file".toList || "file ".toList.isPrefixOf rest then .showFile (String.ofList (trim (rest.drop 4)))
  else
    match ViewChoice.ofNameAnyCase? rest with
    | some v => .show v
    | none => .unknown (String.ofList line)

/-- the first word of a trimmed line, and the rest trimmed -/
def firstWord (line : List Char) : List Char × List Char :=
  (line.takeWhile fun c => !isBlank c, trim (line.dropWhile fun c => !isBlank c))

/-- the command a line gives -/
def parse (text : String) : ShellCommand :=
  let line := trim text.toList
  let (word, rest) := firstWord line
  match String.ofList word with
  | "" => .empty
  | "analyze" => .analyze (String.ofList rest)
  | "open" => .analyze (String.ofList rest)
  | "reload" => .reload
  | "clear" => .clear
  | "show" => parseShow line rest
  | "folder" => .folder (readFolder (String.ofList rest))
  | "help" => .help
  | "?" => .help
  | "exit" => .exit
  | "quit" => .exit
  | _ => .unknown (String.ofList line)

/-- what `help` prints -/
def helpText : String :=
  "analyze <url>          analyze a GitHub folder\n" ++
  "reload                 analyze the last URL again\n" ++
  "clear                  drop the current result\n" ++
  "show [grid|dia|uml]    print the current result\n" ++
  "show file <path>       print the metrics of one analyzed file\n" ++
  "folder [prefix]        restrict the grid to a folder, no prefix resets\n" ++
  "exit                   leave the shell"

end ShellCommand

end ClassAtlas.CommandLine
