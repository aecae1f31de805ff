/-
One-line captions of an analysis: the line that ends a run, and one per view.
-/
import ClassAtlas.Analysis
import ClassAtlas.Decimal.Fixed

namespace ClassAtlas.Report

open ClassAtlas.Graph ClassAtlas.Decimal

/-- the datasets that can be shown -/
inductive View where
  | grid
  | dia
  | uml
deriving DecidableEq, Repr

/-- the mean of some numbers, added from the left; 0 of none -/
def mean (xs : List Float) : Float :=
  if xs.isEmpty then 0.0 else xs.foldl (· + ·) 0.0 / xs.length.toUInt64.toFloat

/-- a count as a number -/
def ofCount (n : Nat) : Float := n.toUInt64.toFloat

/-- the line that ends a successful run -/
def summary (a : Analysis) (extension : String) : String :=
  if a.isEmpty then "No " ++ extension ++ " files found."
  else
    toString a.fileCount ++ " files analyzed | Avg Instability: " ++ fixed 2 (mean (a.coupling.map (·.instability))) ++
      " | Avg Distance: " ++ fixed 2 (mean (a.coupling.map (·.distance)))

/-- the lines of a diagram that draw no edge -/
def classLines (d : Diagram) : List String := d.bodyLines.filter fun l => (Diagram.parseEdge? l).isNone

/-- the line under a view -/
def caption (a : Analysis) : View → String
  | .grid =>
    "Avg lines: " ++ fixed 1 (mean (a.sizes.map fun r => ofCount r.lineCount)) ++ " | Avg complexity: " ++
      fixed 1 (mean (a.sizes.map fun r => ofCount r.complexity))
  | .dia =>
    "Avg instability: " ++ fixed 2 (mean (a.coupling.map (·.instability))) ++ " | Avg distance: " ++
      fixed 2 (mean (a.coupling.map (·.distance)))
  | .uml =>
    "Classes: " ++ toString (classLines a.diagram).length ++ " | Relations: " ++
      toString a.diagram.drawnEdges.length

end ClassAtlas.Report
