/-
Abstractness, instability and distance of each class from the main sequence, and the zone it lies in.

With `i` classes leading to a class and `o` classes it leads to, its instability is `o / (i + o)`, or 0 for a class on
its own; its abstractness is 1 or 0; its distance is how far abstractness and instability are from adding up to 1. The
arithmetic is written once for any `Scalar`: reports compute it in double precision, laws read it over the rationals.
-/
import ClassAtlas.Graph.Basic

namespace ClassAtlas.Graph

open ClassAtlas.Source

/-- numbers the metrics are computed in -/
class Scalar (α : Type) where
  ofNat : Nat → α
  /-- so many tenths -/
  tenths : Nat → α
  add : α → α → α
  sub : α → α → α
  div : α → α → α
  abs : α → α
  lt : α → α → Bool

/-- double precision; counts are machine words -/
instance : Scalar Float where
  ofNat n := n.toUInt64.toFloat
  tenths n := Float.ofScientific n true 1
  add x y := x + y
  sub x y := x - y
  div x y := x / y
  abs x := x.abs
  lt x y := x < y

/-- one row of the coupling table -/
structure CouplingRow (α : Type) where
  path : String
  abstractness : α
  instability : α
  distance : α
  incoming : Nat
  outgoing : Nat
deriving Repr

variable {α : Type} [Scalar α]

def abstractnessOf (abstraction : Bool) : α := Scalar.ofNat (if abstraction then 1 else 0)

def instabilityOf (incoming outgoing : Nat) : α :=
  if incoming + outgoing = 0 then Scalar.ofNat 0
  else Scalar.div (Scalar.ofNat outgoing) (Scalar.ofNat (incoming + outgoing))

def distanceOf (abstractness instability : α) : α :=
  Scalar.abs (Scalar.sub (Scalar.add abstractness instability) (Scalar.ofNat 1))

/-- the row of one class -/
def couplingOf (c : ClassInfo) : CouplingRow α :=
  let incoming := c.incoming
  let outgoing := c.outgoing.size
  let a : α := abstractnessOf c.isAbstraction
  let i : α := instabilityOf incoming outgoing
  { path := c.path, abstractness := a, instability := i, distance := distanceOf a i, incoming, outgoing }

/-- one row per class, in the order of the files -/
def ClassGraph.coupling (g : ClassGraph) : List (CouplingRow α) := g.classes.map couplingOf

/-- where a class lies relative to the main sequence -/
inductive Zone where
  /-- concrete and stable, with dependents -/
  | pain
  /-- abstract and unstable -/
  | uselessness
  | mainSequence
  | offSequence
deriving DecidableEq, Repr

def CouplingRow.zone (r : CouplingRow α) : Zone :=
  if Scalar.lt r.abstractness (Scalar.tenths 2) && Scalar.lt r.instability (Scalar.tenths 2) && 0 < r.incoming then
    .pain
  else if Scalar.lt (Scalar.tenths 8) r.abstractness && Scalar.lt (Scalar.tenths 8) r.instability then .uselessness
  else if Scalar.lt r.distance (Scalar.tenths 3) then .mainSequence
  else .offSequence

namespace Zone

def label : Zone → String
  | .pain => "zone of pain"
  | .uselessness => "zone of uselessness"
  | .mainSequence => "main sequence"
  | .offSequence => "off sequence"

/-- the zone's name in data files -/
def identifier : Zone → String
  | .pain => "zone_of_pain"
  | .uselessness => "zone_of_uselessness"
  | .mainSequence => "main_sequence"
  | .offSequence => "off_sequence"

end Zone

end ClassAtlas.Graph
