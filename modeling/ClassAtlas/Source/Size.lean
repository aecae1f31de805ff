/-
The size of a source file: lines that are not blank, and branch keywords.

Keywords are counted wherever they stand as whole words, comments and string literals included.
-/
import ClassAtlas.Source.File
import ClassAtlas.Text.Pattern

namespace ClassAtlas.Source

open ClassAtlas.Text

/-- one row of the size table -/
structure SizeRow where
  path : String
  lineCount : Nat
  complexity : Nat
deriving DecidableEq, Repr

/-- a branch keyword standing as a whole word -/
def branchKeyword : Pattern :=
  .all [.boundary,
    .choice (.text "if".toList) (.choice (.text "switch".toList) (.choice (.text "for".toList) (.text "while".toList))),
    .boundary]

/-- lines that hold more than white space -/
def countLines (s : List Char) : Nat := ((lines s).filter fun l => !(trim l).isEmpty).length

/-- branch keywords, line by line -/
def countBranches (s : List Char) : Nat :=
  ((lines s).map fun l => (branchKeyword.matchesIn l).length).foldr (· + ·) 0

def SourceFile.size (f : SourceFile) : SizeRow :=
  ⟨f.path, countLines f.content.toList, countBranches f.content.toList⟩

end ClassAtlas.Source
