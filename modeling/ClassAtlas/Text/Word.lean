/-
Word characters and what counts as a letter or number in a type name.

A word character is a letter, a mark, a decimal digit, a connector such as `_`, or a joiner; words are runs of them, and
a word boundary lies between a word character and its absence. Type names are made of letters, numbers of any kind, `_`
and `$`.
-/
import ClassAtlas.Text.Letter

namespace ClassAtlas.Text

def isUpperAscii (c : Char) : Bool := 'A' ≤ c && c ≤ 'Z'

def isLetterAscii (c : Char) : Bool := isUpperAscii c || ('a' ≤ c && c ≤ 'z')

def isDigitAscii (c : Char) : Bool := '0' ≤ c && c ≤ '9'

/-- connector punctuation beyond `_` (general category Pc) -/
def isConnector (n : Nat) : Bool :=
  n == 0x203F || n == 0x2040 || n == 0x2054 || n == 0xFE33 || n == 0xFE34 || (0xFE4D ≤ n && n ≤ 0xFE4F) || n == 0xFF3F

/-- the two joiners, which keep a word together -/
def isJoiner (n : Nat) : Bool := n == 0x200C || n == 0x200D

/-- characters that words are made of -/
def isWord (c : Char) : Bool :=
  let n := c.toNat
  if n < 128 then isLetterAscii c || isDigitAscii c || c == '_'
  else
    Letter.within Letter.alphabetic n || Letter.within Letter.marks n || Letter.within Letter.decimals n ||
      isConnector n || isJoiner n

/-- letters and numbers of any script -/
def isAlphanumeric (c : Char) : Bool :=
  let n := c.toNat
  if n < 128 then isLetterAscii c || isDigitAscii c
  else
    Letter.within Letter.alphabetic n || Letter.within Letter.decimals n || Letter.within Letter.numbers n

/-- characters of a simple type name -/
def isTypeNameChar (c : Char) : Bool := isAlphanumeric c || c == '_' || c == '$'

/-- ASCII letters, digits and `_`: what continues a capitalised identifier -/
def isIdentChar (c : Char) : Bool := isLetterAscii c || isDigitAscii c || c == '_'

/-- what starts the name of a field or method -/
def isMemberStart (c : Char) : Bool := isLetterAscii c || c == '_' || c == '$'

/-- what continues the name of a field or method -/
def isMemberChar (c : Char) : Bool := isMemberStart c || isDigitAscii c

end ClassAtlas.Text
