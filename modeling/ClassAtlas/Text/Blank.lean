/-
White space, and what is cut or divided at it.

All functions work on `List Char`; a text is blank when it holds white space only.
-/

namespace ClassAtlas.Text

/-- the 25 characters with the Unicode property White_Space -/
def isBlank (c : Char) : Bool :=
  let n := c.toNat
  (9 ≤ n && n ≤ 13) || n == 0x20 || n == 0x85 || n == 0xA0 || n == 0x1680 || (0x2000 ≤ n && n ≤ 0x200A) ||
    n == 0x2028 || n == 0x2029 || n == 0x202F || n == 0x205F || n == 0x3000

/-- drops from the end the characters of a class -/
def dropEndWhile (ok : Char → Bool) (s : List Char) : List Char :=
  (s.reverse.dropWhile ok).reverse

def trimStart (s : List Char) : List Char := s.dropWhile isBlank

def trimEnd (s : List Char) : List Char := dropEndWhile isBlank s

/-- without white space at either end -/
def trim (s : List Char) : List Char := trimEnd (trimStart s)

/-- the parts between the characters of a class that are not empty -/
def segments (sep : Char → Bool) (s : List Char) : List (List Char) :=
  (s.splitOnP sep).filter fun p => !p.isEmpty

/-- the words that white space divides -/
def words (s : List Char) : List (List Char) := segments isBlank s

/-- a carriage return or a line feed: each of them ends a line -/
def isLineBreak (c : Char) : Bool := c == '\r' || c == '\n'

/-- the lines of a source text; a carriage return and line feed pair encloses an empty one -/
def lines (s : List Char) : List (List Char) := s.splitOnP isLineBreak

/-- the part after the last character of a class; the whole text if there is none -/
def afterLast (sep : Char → Bool) (s : List Char) : List Char :=
  (s.reverse.takeWhile fun c => !sep c).reverse

/-- the part before the last character of a class; the whole text if there is none -/
def beforeLast (sep : Char → Bool) (s : List Char) : List Char :=
  match s.reverse.dropWhile fun c => !sep c with
  | [] => s
  | _ :: r => r.reverse

/-- one character for another -/
def swap (old new : Char) (s : List Char) : List Char :=
  s.map fun c => if c == old then new else c

/-- equality up to the case of ASCII letters -/
def sameIgnoringCase (s t : List Char) : Bool :=
  s.map Char.toLower == t.map Char.toLower

end ClassAtlas.Text
