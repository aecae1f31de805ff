/-
What is known of one class: its kind, its parent, and the names it relates to, kind by kind.
-/
import ClassAtlas.Collect.NameSet

namespace ClassAtlas.Source

open ClassAtlas.Collect

/-- a class as read from its file; `incoming` is filled in once the other classes are known -/
structure ClassInfo where
  path : String
  name : String
  isInterface : Bool := false
  isAbstract : Bool := false
  parent : Option String := none
  interfaces : NameSet := ∅
  compositions : NameSet := ∅
  aggregations : NameSet := ∅
  associations : NameSet := ∅
  dependencies : NameSet := ∅
  incoming : Nat := 0
deriving DecidableEq

namespace ClassInfo

/-- every name the class relates to but its own -/
def outgoing (c : ClassInfo) : NameSet :=
  (NameSet.ofList (c.interfaces.toList ++ c.parent.toList ++ c.compositions.toList ++ c.aggregations.toList ++
    c.associations.toList ++ c.dependencies.toList)).filter fun n => n != c.name

def isAbstraction (c : ClassInfo) : Bool := c.isInterface || c.isAbstract

end ClassInfo

end ClassAtlas.Source
