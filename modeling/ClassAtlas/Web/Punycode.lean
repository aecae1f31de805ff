/-
Punycode: the labels of a host name in ASCII.

The characters beyond ASCII are taken in ascending order; each is written as a distance from the one before, in digits of
base 36 whose place values adapt to the distances seen so far.
-/

namespace ClassAtlas.Web.Punycode

/-- digits are `a` to `z`, then `0` to `9` -/
def digit (d : Nat) : Char := if d < 26 then Char.ofNat (97 + d) else Char.ofNat (22 + d)

/-- below this a digit is the last one -/
def threshold (place bias : Nat) : Nat := max 1 (min 26 (place - bias))

/-- halving steps of the adaptation, with the places they skip -/
def shrink (delta places : Nat) : Nat × Nat :=
  if 455 < delta then shrink (delta / 35) (places + 36) else (delta, places)
termination_by delta
decreasing_by exact Nat.div_lt_self (by omega) (by omega)

/-- the bias after a distance, where so many characters have been written -/
def adapt (delta written : Nat) (first : Bool) : Nat :=
  let start := if first then delta / 700 else delta / 2
  let (d, places) := shrink (start + start / written) 0
  places + 36 * d / (d + 38)

/-- a distance in digits, from a place on -/
def distance (bias place n : Nat) : List Char :=
  let t := threshold place bias
  if n < t then [digit n] else digit (t + (n - t) % (36 - t)) :: distance bias (place + 36) ((n - t) / (36 - t))
termination_by n
decreasing_by
  have h : 1 ≤ threshold place bias := Nat.le_max_left ..
  have := Nat.div_le_self (n - threshold place bias) (36 - threshold place bias)
  omega

structure State where
  out : List Char
  delta : Nat := 0
  bias : Nat := 72
  /-- characters written so far -/
  written : Nat

/-- one character of the label, while the code point `m` is being written -/
def scan (basic m : Nat) (s : State) (c : Char) : State :=
  if c.toNat < m then { s with delta := s.delta + 1 }
  else if c.toNat == m then
    { out := s.out ++ distance s.bias 36 s.delta, delta := 0,
      bias := adapt s.delta (s.written + 1) (s.written == basic), written := s.written + 1 }
  else s

/-- writes the code points given in ascending order; `n` is the least one still possible -/
def writeAll (label : List Char) (basic : Nat) : List Nat → Nat → State → State
  | [], _, s => s
  | m :: ms, n, s =>
    let t := label.foldl (scan basic m) { s with delta := s.delta + (m - n) * (s.written + 1) }
    writeAll label basic ms (m + 1) { t with delta := t.delta + 1 }

def isAscii (c : Char) : Bool := c.toNat < 0x80

/-- the label in ASCII -/
def encode (label : List Char) : List Char :=
  let basic := label.filter isAscii
  let extended := ((label.filter fun c => !isAscii c).map Char.toNat).mergeSort.eraseDups
  let start : State := { out := if basic.isEmpty then [] else basic ++ ['-'], written := basic.length }
  (writeAll label basic.length extended 0x80 start).out

end ClassAtlas.Web.Punycode
