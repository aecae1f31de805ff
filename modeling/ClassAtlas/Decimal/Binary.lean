/-
Double precision numbers taken apart: sign, significand and power of two.
-/

namespace ClassAtlas.Decimal

/-- a double precision number; a finite one is `± significand · 2 ^ exponent` -/
inductive Binary where
  | nan
  | infinite (negative : Bool)
  | finite (negative : Bool) (significand : Nat) (exponent : Int)
deriving DecidableEq, Repr

/-- the number with the given 64 bits -/
def Binary.ofBits (bits : UInt64) : Binary :=
  let n := bits.toNat
  let negative := n / Nat.pow 2 63 == 1
  let power : Nat := n / Nat.pow 2 52 % Nat.pow 2 11
  let fraction : Nat := n % Nat.pow 2 52
  if power == 2047 then if fraction == 0 then .infinite negative else .nan
  else if power == 0 then .finite negative fraction (-1074)
  else .finite negative (Nat.pow 2 52 + fraction) ((power : Int) - 1075)

/-- a quotient rounded to the nearest integer, a half to the even one -/
def roundDiv (num den : Nat) : Nat :=
  let q := num / den
  let r := num % den
  if 2 * r < den then q else if den < 2 * r then q + 1 else if q % 2 == 0 then q else q + 1

/-- copies of a character -/
def fill (count : Nat) (c : Char) : String := String.ofList (List.replicate count c)

end ClassAtlas.Decimal
