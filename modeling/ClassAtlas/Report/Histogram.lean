/-
How many edges of each kind a diagram draws from each class.
-/
import ClassAtlas.Graph.Diagram

namespace ClassAtlas.Report

open ClassAtlas.Graph ClassAtlas.Collect

/-- the edges of a kind from a source -/
def countEdges (edges : List Edge) (source : String) (k : RelationKind) : Nat :=
  (edges.filter fun e => e.source == source && e.kind == k).length

/-- per source, ascending, the kinds drawn from it in their precedence, with their counts -/
def histogram (d : Diagram) : List (String × List (RelationKind × Nat)) :=
  let edges := d.drawnEdges
  (NameSet.ofList (edges.map (·.source))).toList.map fun s =>
    (s, (RelationKind.precedence.map fun k => (k, countEdges edges s k)).filter fun x => x.2 != 0)

end ClassAtlas.Report
