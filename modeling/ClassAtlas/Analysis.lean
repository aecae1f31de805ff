/-
The analysis of a set of source files: sizes, coupling and diagram, computed together and published together.
-/
import ClassAtlas.Graph.Coupling
import ClassAtlas.Graph.Diagram
import ClassAtlas.Source.Reader
import ClassAtlas.Source.Size

namespace ClassAtlas

open ClassAtlas.Source ClassAtlas.Graph

/-- the three datasets of one analysis -/
structure Analysis where
  sizes : List SizeRow
  coupling : List (CouplingRow Float)
  diagram : Diagram
deriving Repr

namespace Analysis

/-- the analysis of no files -/
def empty : Analysis := ⟨[], [], Diagram.empty⟩

def isEmpty (a : Analysis) : Bool := a.sizes.isEmpty

def fileCount (a : Analysis) : Nat := a.sizes.length

end Analysis

/-- the classes of some files, one per file and in their order -/
def readClasses (files : List SourceFile) : List ClassInfo := files.map (·.readClass)

/-- the classes of some files, unless the patterns for a class name are refused: the first refusal, with its reason -/
def tryReadClasses (refusal : String → Option String) (files : List SourceFile) : Except String (List ClassInfo) :=
  files.mapM fun f =>
    match refusal f.className with
    | none => .ok f.readClass
    | some reason => .error s!"cannot build patterns for class '{f.className}': {reason}"

/-- the analysis of some files -/
def Analysis.ofFiles (files : List SourceFile) : Except Fault Analysis := do
  let g ← build (readClasses files)
  return ⟨files.map (·.size), g.coupling, Diagram.ofGraph g⟩

end ClassAtlas
