/-
Reading a class from its source file: the declaration from the whole text, the uses of other names line by line.

The names are not yet restricted to the repository's own classes; the class graph does that.
-/
import ClassAtlas.Source.ClassInfo
import ClassAtlas.Source.Declaration
import ClassAtlas.Source.File
import ClassAtlas.Source.Uses

namespace ClassAtlas.Source

open ClassAtlas.Text ClassAtlas.Collect

/-- the names that some line uses in the given way -/
def namesUsed (uses : List (List Char × Use)) (u : Use) : NameSet :=
  NameSet.ofList ((uses.filter fun x => x.2 == u).map fun x => String.ofList x.1)

/-- the class a file declares -/
def SourceFile.readClass (f : SourceFile) : ClassInfo :=
  let name := f.className.toList
  let content := f.content.toList
  let uses := (lines content).flatMap (usesOn name)
  { path := f.path
    name := f.className
    isInterface := Declaration.isInterface name content
    isAbstract := Declaration.isAbstract name content
    parent := Declaration.parent name content
    interfaces := Declaration.interfaces name content
    compositions := namesUsed uses .composition
    aggregations := namesUsed uses .aggregation
    associations := namesUsed uses .association
    dependencies := namesUsed uses .dependency }

end ClassAtlas.Source
