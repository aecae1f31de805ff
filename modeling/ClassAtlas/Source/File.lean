/-
Source files of a repository and the class each one stands for.

A file is named after its class: the class name is the last part of the path, either slash dividing, without its last
extension. A file whose name leaves nothing but white space stands for no class and is never a `SourceFile`.
-/
import ClassAtlas.Text.Blank

namespace ClassAtlas.Source

open ClassAtlas.Text

def isSlash (c : Char) : Bool := c == '/' || c == '\\'

/-- the last part of a path without its last extension -/
def className (path : String) : String :=
  String.ofList (beforeLast (· == '.') (afterLast isSlash path.toList))

/-- whether white space is all there is -/
def isBlankName (name : String) : Bool := (trim name.toList).isEmpty

/-- a file whose path names a class -/
structure SourceFile where
  path : String
  content : String
  named : isBlankName (className path) = false
deriving DecidableEq

namespace SourceFile

/-- the class the file stands for -/
def className (f : SourceFile) : String := Source.className f.path

/-- refuses a path that names no class -/
def of? (path content : String) : Option SourceFile :=
  if h : isBlankName (Source.className path) = false then some ⟨path, content, h⟩ else none

end SourceFile

end ClassAtlas.Source
