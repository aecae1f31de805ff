/-
The class graph of a repository: relations lead only to other classes of the repository, and each class knows how many
classes lead to it.

Files that share a class name form one node: the first of them decides whether the class is an interface or abstract,
and a class that leads to another counts once, under its name. `build` checks the finished graph before it is used.
-/
import ClassAtlas.Source.ClassInfo

namespace ClassAtlas.Graph

open ClassAtlas.Source ClassAtlas.Collect

/-- classes in the order of their files, and the set of their names -/
structure ClassGraph where
  classes : List ClassInfo
  names : NameSet
deriving DecidableEq

/-- what the check of a finished graph can find -/
inductive Fault where
  | foreignTarget (target source : String)
  | selfReference (name : String)
deriving DecidableEq, Repr

def Fault.message : Fault → String
  | .foreignTarget target source => s!"relation target '{target}' of '{source}' is not a repository class"
  | .selfReference name => s!"class '{name}' references itself"

/-- the names of some classes -/
def nameSet (l : List ClassInfo) : NameSet := NameSet.ofList (l.map (·.name))

/-- the kind flags of the first class with the name -/
def firstFlags (l : List ClassInfo) (c : ClassInfo) : ClassInfo :=
  match l.find? fun d => d.name == c.name with
  | none => c
  | some d => { c with isInterface := d.isInterface, isAbstract := d.isAbstract }

/-- keeps the relations that lead to one of the names other than the class's own -/
def restrict (names : NameSet) (c : ClassInfo) : ClassInfo :=
  let keep := fun n => n != c.name && decide (n ∈ names)
  { c with
    parent := c.parent.filter keep
    interfaces := c.interfaces.filter keep
    compositions := c.compositions.filter keep
    aggregations := c.aggregations.filter keep
    associations := c.associations.filter keep
    dependencies := c.dependencies.filter keep }

/-- the names of the classes that lead to a name -/
def dependents (l : List ClassInfo) (name : String) : NameSet :=
  nameSet (l.filter fun c => decide (name ∈ c.outgoing))

/-- restricted relations, shared flags and counted dependents -/
def assemble (l : List ClassInfo) : ClassGraph :=
  let names := nameSet l
  let restricted := l.map fun c => restrict names (firstFlags l c)
  ⟨restricted.map fun c => { c with incoming := (dependents restricted c.name).size }, names⟩

/-- whether a class relates to itself, by any kind -/
def refersToItself (c : ClassInfo) : Bool :=
  c.parent == some c.name || decide (c.name ∈ c.interfaces) || decide (c.name ∈ c.compositions) ||
    decide (c.name ∈ c.aggregations) || decide (c.name ∈ c.associations) || decide (c.name ∈ c.dependencies)

/-- the first fault of a class -/
def faultOf? (names : NameSet) (c : ClassInfo) : Option Fault :=
  match c.outgoing.toList.find? fun n => !decide (n ∈ names) with
  | some n => some (.foreignTarget n c.name)
  | none => if refersToItself c then some (.selfReference c.name) else none

/-- the first fault of a graph -/
def ClassGraph.fault? (g : ClassGraph) : Option Fault := g.classes.findSome? (faultOf? g.names)

/-- the class graph of some classes, once it is checked -/
def build (l : List ClassInfo) : Except Fault ClassGraph :=
  let g := assemble l
  match g.fault? with
  | none => .ok g
  | some f => .error f

end ClassAtlas.Graph
