/-
PlantUML class diagrams: what is declared and drawn for a class graph, and how a diagram's text is read back.

A graph declares each class name once, in the order of the files, and draws for each ordered pair of classes at most one
edge, of the strongest kind that relates them.
-/
import ClassAtlas.Collect.KeepFirst
import ClassAtlas.Graph.Basic
import ClassAtlas.Graph.Relation
import ClassAtlas.Text.Blank

namespace ClassAtlas.Graph

open ClassAtlas.Source ClassAtlas.Collect ClassAtlas.Text

/-- an arrow between two classes -/
structure Edge where
  source : String
  kind : RelationKind
  target : String
deriving DecidableEq, Repr

def Edge.line (e : Edge) : String := s!"{e.source} {e.kind.arrow} {e.target}"

/-- the line that declares a class -/
def declarationLine (c : ClassInfo) : String :=
  (if c.isInterface then "interface " else if c.isAbstract then "abstract class " else "class ") ++ c.name

namespace ClassGraph

/-- the first class of each name -/
def declared (g : ClassGraph) : List ClassInfo := keepFirst (·.name) g.classes

/-- every relation, the strongest kinds first -/
def relations (g : ClassGraph) : List Edge :=
  RelationKind.precedence.flatMap fun k => g.classes.flatMap fun c => (targets c k).map (Edge.mk c.name k)

/-- the edges drawn: for each ordered pair of classes its first relation -/
def edges (g : ClassGraph) : List Edge :=
  keepFirst (fun e => (e.source, e.target)) (g.relations.filter fun e => e.target != e.source)

end ClassGraph

/-- the text of a class diagram -/
structure Diagram where
  text : String
deriving DecidableEq, Repr

namespace Diagram

def startMark : String := "@startuml"

def endMark : String := "@enduml"

/-- the diagram with the given lines between its marks -/
def ofLines (body : List String) : Diagram :=
  ⟨startMark ++ "\n" ++ String.join (body.map (· ++ "\n")) ++ endMark⟩

/-- the diagram of no classes -/
def empty : Diagram := ofLines []

/-- the diagram of a graph -/
def ofGraph (g : ClassGraph) : Diagram := ofLines (g.declared.map declarationLine ++ g.edges.map Edge.line)

/-- a line without the carriage return it may end in -/
def withoutReturn (s : List Char) : List Char :=
  match s.reverse with
  | '\r' :: r => r.reverse
  | _ => s

/-- the lines of a text: each ends at a line feed, with or without a carriage return before it, and a line feed at the
end of the text opens no further line -/
def textLines (s : List Char) : List (List Char) :=
  match (s.splitOnP (· == '\n')).reverse with
  | [] => []
  | last :: earlier =>
    let closed := earlier.reverse.map withoutReturn
    if last.isEmpty then closed else closed ++ [last]

/-- the lines between the marks -/
def bodyLines (d : Diagram) : List String :=
  ((textLines d.text.toList).map String.ofList).filter fun l => l != startMark && l != endMark

/-- the edge a line draws: a source, an arrow and a target, with nothing else -/
def parseEdge? (line : String) : Option Edge :=
  match words line.toList with
  | [source, arrow, target] =>
    (RelationKind.ofArrow? (String.ofList arrow)).map fun k => ⟨String.ofList source, k, String.ofList target⟩
  | _ => none

/-- the edges that a diagram's lines draw -/
def drawnEdges (d : Diagram) : List Edge := d.bodyLines.filterMap parseEdge?

end Diagram

end ClassAtlas.Graph
