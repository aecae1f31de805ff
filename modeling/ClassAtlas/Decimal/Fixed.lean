/-
Numbers written with a fixed number of decimal places.

The exact binary value is rounded, a half to the even neighbour, and a negative number keeps its sign even where all
its places are zero.
-/
import ClassAtlas.Decimal.Binary

namespace ClassAtlas.Decimal

/-- digits with a point before the last `places` of them -/
def withPoint (places n : Nat) : String :=
  let digits := toString n
  let padded := fill (places + 1 - digits.length) '0' ++ digits
  if places == 0 then padded
  else
    let cs := padded.toList
    String.ofList (cs.take (cs.length - places)) ++ "." ++ String.ofList (cs.drop (cs.length - places))

/-- the number of units of the last place, nearest to a finite number -/
def unitsOf (places significand : Nat) (exponent : Int) : Nat :=
  match exponent with
  | .ofNat e => significand * Nat.pow 2 e * Nat.pow 10 places
  | .negSucc e => roundDiv (significand * Nat.pow 10 places) (Nat.pow 2 (e + 1))

/-- a number with the given places -/
def fixed (places : Nat) (x : Float) : String :=
  match Binary.ofBits x.toBits with
  | .nan => "NaN"
  | .infinite negative => if negative then "-inf" else "inf"
  | .finite negative m e => (if negative then "-" else "") ++ withPoint places (unitsOf places m e)

end ClassAtlas.Decimal
