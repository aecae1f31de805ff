/-
Numbers written with the fewest digits that read back as the same double precision number.

`shortestDigits` looks for the coarsest decimal grid with a point among the reals that round to the number, and of the
points of that grid takes the one nearest to it. `shortest` writes the digits positionally for numbers from 1e-5 up to
1e16, with at least one decimal, and with an exponent otherwise.
-/
import ClassAtlas.Decimal.Binary

namespace ClassAtlas.Decimal

/-- a positive fraction and the ends of the interval that rounds to it, over one denominator -/
structure Rounding where
  value : Nat
  low : Nat
  high : Nat
  den : Nat
  /-- whether the ends belong to the interval -/
  closed : Bool
deriving DecidableEq, Repr

/-- the reals that round to `m · 2 ^ e`: half way to each neighbour, and the ends too if `m` is even -/
def Rounding.of (m : Nat) (e : Int) : Rounding :=
  let down := if m == Nat.pow 2 52 && e > -1074 then 1 else 2
  let scale := fun n => match e - 2 with
    | .ofNat k => n * Nat.pow 2 k
    | .negSucc _ => n
  let den := match e - 2 with
    | .ofNat _ => 1
    | .negSucc k => Nat.pow 2 (k + 1)
  ⟨scale (4 * m), scale (4 * m - down), scale (4 * m + 2), den, m % 2 == 0⟩

/-- whether `c · 10 ^ k` rounds to the number -/
def Rounding.holds (r : Rounding) (c : Nat) (k : Int) : Bool :=
  let (x, d) := match k with
    | .ofNat j => (c * Nat.pow 10 j * r.den, 1)
    | .negSucc j => (c * r.den, Nat.pow 10 (j + 1))
  if r.closed then r.low * d ≤ x && x ≤ r.high * d else r.low * d < x && x < r.high * d

/-- the greatest `c` with `c · 10 ^ k` not above the number -/
def Rounding.below (r : Rounding) (k : Int) : Nat :=
  match k with
  | .ofNat j => r.value / (r.den * Nat.pow 10 j)
  | .negSucc j => r.value * Nat.pow 10 (j + 1) / r.den

/-- whether `c + 1` is nearer than `c` on the grid of `10 ^ k`; half way, whether `c` is odd -/
def Rounding.upper (r : Rounding) (c : Nat) (k : Int) : Bool :=
  let (x, d) := match k with
    | .ofNat j => ((2 * c + 1) * Nat.pow 10 j * r.den, 1)
    | .negSucc j => ((2 * c + 1) * r.den, Nat.pow 10 (j + 1))
  x < 2 * r.value * d || (x == 2 * r.value * d && c % 2 == 1)

/-- leading zeros after the point, up to a limit -/
def leadingZeros : Nat → Nat → Nat → Nat
  | 0, _, _ => 0
  | limit + 1, num, den => if num * 10 < den then leadingZeros limit (num * 10) den + 1 else 0

/-- the number of digits before the point; minus the number of zeros after it for a number below one tenth -/
def Rounding.magnitude (r : Rounding) : Int :=
  if r.den ≤ r.value then ((toString (r.value / r.den)).length : Int)
  else -(leadingZeros 400 r.value r.den : Int)

/-- the first hit on the grids with `n`, `n + 1`, … digits -/
def Rounding.search (r : Rounding) (magnitude : Int) : Nat → Nat → Nat × Int
  | 0, n => (r.below (magnitude - n), magnitude - n)
  | tries + 1, n =>
    let k := magnitude - n
    let c := r.below k
    match r.holds c k, r.holds (c + 1) k with
    | true, true => (if r.upper c k then c + 1 else c, k)
    | true, false => (c, k)
    | false, true => (c + 1, k)
    | false, false => r.search magnitude tries (n + 1)

/-- digits and power of ten of the shortest decimal for `m · 2 ^ e`, where `m` is positive -/
def shortestDigits (m : Nat) (e : Int) : Nat × Int :=
  let r := Rounding.of m e
  r.search r.magnitude 17 1

/-- drops zeros at the end, up to a limit, and counts them -/
def dropZeros : Nat → Nat → Int → Nat × Int
  | 0, c, k => (c, k)
  | limit + 1, c, k => if c != 0 && c % 10 == 0 then dropZeros limit (c / 10) (k + 1) else (c, k)

/-- digits `c` and power `k`, positional or with an exponent -/
def place (c : Nat) (k : Int) : String :=
  let digits := (toString c).toList
  let point := (digits.length : Int) + k
  if 0 ≤ k && point ≤ 16 then String.ofList digits ++ fill k.toNat '0' ++ ".0"
  else if 0 < point && point ≤ 16 then
    String.ofList (digits.take point.toNat) ++ "." ++ String.ofList (digits.drop point.toNat)
  else if -5 < point && point ≤ 0 then "0." ++ fill (-point).toNat '0' ++ String.ofList digits
  else
    let fraction := digits.drop 1
    String.ofList (digits.take 1) ++ (if fraction.isEmpty then "" else "." ++ String.ofList fraction) ++ "e" ++
      toString (point - 1)

/-- the shortest text of a finite number; none for the others -/
def shortest? (x : Float) : Option String :=
  match Binary.ofBits x.toBits with
  | .nan => none
  | .infinite _ => none
  | .finite negative m e =>
    let sign := if negative then "-" else ""
    if m == 0 then some (sign ++ "0.0")
    else
      let (c, k) := shortestDigits m e
      let (c, k) := dropZeros 20 c k
      some (sign ++ place c k)

end ClassAtlas.Decimal
