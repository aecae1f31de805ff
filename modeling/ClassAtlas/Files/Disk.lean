/-
A disk: folders and files under absolute paths, and a working folder that relative paths start from.

A path is walked from the left: every part but the last must be a folder, `.` stays, `..` goes up. Reading and writing
fail with a cause.
-/
import ClassAtlas.Text.Utf8

namespace ClassAtlas.Files

open ClassAtlas.Text

/-- why a file can be neither read nor written -/
inductive FileFault where
  | notFound
  | notDirectory
  | isDirectory
  | nameTooLong
  /-- a path with a zero character in it -/
  | zeroInPath
deriving DecidableEq, Repr

def FileFault.message : FileFault → String
  | .notFound => "No such file or directory (os error 2)"
  | .notDirectory => "Not a directory (os error 20)"
  | .isDirectory => "Is a directory (os error 21)"
  | .nameTooLong => "File name too long (os error 36)"
  | .zeroInPath => "file name contained an unexpected NUL byte"

inductive Node where
  | folder
  | file (bytes : List UInt8)
deriving DecidableEq, Repr

structure Disk where
  /-- what stands at each absolute path, the top folder aside -/
  nodes : List (List String × Node) := []
  /-- the working folder -/
  here : List String := []
deriving Repr

/-- where a path leads -/
inductive Place where
  | found (path : List String) (node : Node)
  /-- nothing stands there yet, in an existing folder -/
  | free (path : List String)
deriving DecidableEq, Repr

namespace Disk

def node? (d : Disk) (path : List String) : Option Node := if path.isEmpty then some .folder else d.nodes.lookup path

/-- walks parts from a folder; the last may be missing -/
def walk (d : Disk) (folder : List String) : List String → Except FileFault Place
  | [] => .ok (.found folder .folder)
  | part :: rest =>
    if part == "." then d.walk folder rest
    else if part == ".." then d.walk folder.dropLast rest
    else if 255 < part.utf8ByteSize then .error .nameTooLong
    else
      match d.node? (folder ++ [part]), rest with
      | none, [] => .ok (.free (folder ++ [part]))
      | none, _ => .error .notFound
      | some (.file bytes), [] => .ok (.found (folder ++ [part]) (.file bytes))
      | some (.file _), _ => .error .notDirectory
      | some .folder, _ => d.walk (folder ++ [part]) rest

/-- the parts of a path between slashes -/
def parts (path : List Char) : List String := ((path.splitOnP (· == '/')).filter (!·.isEmpty)).map String.ofList

/-- where a path leads; one that ends in a slash must lead to a folder -/
def locate (d : Disk) (path : String) : Except FileFault Place := do
  let cs := path.toList
  if cs.contains '\x00' then throw .zeroInPath
  if cs.isEmpty then throw .notFound
  if 4096 ≤ path.utf8ByteSize then throw .nameTooLong
  let place ← d.walk (if cs.head? == some '/' then [] else d.here) (parts cs)
  match place, cs.getLast? == some '/' with
  | .found _ (.file _), true => throw .notDirectory
  | _, _ => return place

/-- whether a path leads to a file or folder -/
def holds (d : Disk) (path : String) : Bool :=
  match d.locate path with
  | .ok (.found _ _) => true
  | _ => false

def read (d : Disk) (path : String) : Except FileFault (List UInt8) := do
  match ← d.locate path with
  | .found _ (.file bytes) => return bytes
  | .found _ .folder => throw .isDirectory
  | .free _ => throw .notFound

/-- puts bytes in place of what a file holds, or into a new file -/
def write (d : Disk) (path : String) (bytes : List UInt8) : Except FileFault Disk := do
  match ← d.locate path with
  | .found _ .folder => throw .isDirectory
  | .found p (.file _) => return { d with nodes := d.nodes.map fun (q, n) => if q == p then (q, .file bytes) else (q, n) }
  | .free p =>
    if path.toList.getLast? == some '/' then throw .isDirectory
    return { d with nodes := d.nodes ++ [(p, .file bytes)] }

/-- what reading a file as text fails with -/
def notText : String := "stream did not contain valid UTF-8"

/-- a file as text -/
def readText (d : Disk) (path : String) : Except String String :=
  match d.read path with
  | .error f => .error f.message
  | .ok bytes =>
    match Utf8.decode bytes with
    | .ok s => .ok s
    | .error _ => .error notText

end Disk

/-- a path below a folder -/
def join (folder path : String) : String :=
  if path.toList.head? == some '/' then path
  else if folder.isEmpty || folder.toList.getLast? == some '/' then folder ++ path
  else folder ++ "/" ++ path

end ClassAtlas.Files
