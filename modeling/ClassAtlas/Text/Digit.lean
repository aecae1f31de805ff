/-
Digits and the numbers they write, in bases up to sixteen.
-/
import ClassAtlas.Text.Word

namespace ClassAtlas.Text

/-- the value of a digit, letters in either case -/
def digit? (c : Char) : Option Nat :=
  if isDigitAscii c then some (c.toNat - 48)
  else if 'a' ≤ c && c ≤ 'f' then some (c.toNat - 87)
  else if 'A' ≤ c && c ≤ 'F' then some (c.toNat - 55)
  else none

/-- the number that digits write, 0 if there are none; none if one of them is no digit of the base -/
def numberIn (base : Nat) (s : List Char) : Option Nat :=
  s.foldl
    (fun acc c => do
      let n ← acc
      let d ← digit? c
      if d < base then some (n * base + d) else none)
    (some 0)

def upperDigit (n : Nat) : Char := if n < 10 then Char.ofNat (48 + n) else Char.ofNat (55 + n)

def lowerDigit (n : Nat) : Char := if n < 10 then Char.ofNat (48 + n) else Char.ofNat (87 + n)

end ClassAtlas.Text
