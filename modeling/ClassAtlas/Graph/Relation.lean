/-
The kinds of relation between classes, their order of precedence, and their arrows in a diagram.
-/
import ClassAtlas.Source.ClassInfo

namespace ClassAtlas.Graph

open ClassAtlas.Source

inductive RelationKind where
  | implementation
  | inheritance
  | composition
  | aggregation
  | association
  | dependency
deriving DecidableEq, Repr

namespace RelationKind

/-- all kinds, the strongest first -/
def precedence : List RelationKind :=
  [.implementation, .inheritance, .composition, .aggregation, .association, .dependency]

/-- the arrow drawn for a relation -/
def arrow : RelationKind → String
  | .implementation => "..|>"
  | .inheritance => "--|>"
  | .composition => "*--"
  | .aggregation => "o--"
  | .association => "-->"
  | .dependency => "..>"

/-- the kind an arrow stands for -/
def ofArrow? (s : String) : Option RelationKind := precedence.find? fun k => k.arrow == s

/-- the kind's name in reports -/
def label : RelationKind → String
  | .implementation => "implements"
  | .inheritance => "extends"
  | .composition => "composition"
  | .aggregation => "aggregation"
  | .association => "association"
  | .dependency => "dependency"

/-- an arrow stands for the kind it is drawn for -/
theorem ofArrow?_arrow (k : RelationKind) : ofArrow? k.arrow = some k := by cases k <;> decide

theorem arrow_of_ofArrow? {s : String} {k : RelationKind} (h : ofArrow? s = some k) : k.arrow = s := by
  simpa using List.find?_some h

end RelationKind

/-- the names a class relates to by one kind, ascending -/
def targets (c : ClassInfo) : RelationKind → List String
  | .implementation => c.interfaces.toList
  | .inheritance => c.parent.toList
  | .composition => c.compositions.toList
  | .aggregation => c.aggregations.toList
  | .association => c.associations.toList
  | .dependency => c.dependencies.toList

end ClassAtlas.Graph
