/-
Percent encoding: characters that a part of an address cannot hold are written as the bytes of their UTF-8 form.

Each part of an address has its own set of characters that are kept. Form encoding, for the values of a query, keeps
fewer and writes a space as a plus sign.
-/
import ClassAtlas.Text.Digit
import ClassAtlas.Text.Utf8

namespace ClassAtlas.Web

open ClassAtlas.Text

/-- a byte as a percent sign and two upper-case digits -/
def percentByte (b : UInt8) : List Char := ['%', upperDigit (b.toNat / 16), upperDigit (b.toNat % 16)]

def encodeChar (keeps : Char → Bool) (c : Char) : List Char :=
  if keeps c then [c] else (String.utf8EncodeChar c).flatMap percentByte

/-- writes every character that is not kept as its bytes -/
def percentEncode (keeps : Char → Bool) (s : List Char) : List Char := s.flatMap (encodeChar keeps)

/-- the byte that two digits write -/
def byte? (high low : Char) : Option UInt8 := do return ((← digit? high) * 16 + (← digit? low)).toUInt8

/-- the bytes of an encoded text; a percent sign that starts no byte stands for itself -/
def percentDecode : List Char → List UInt8
  | [] => []
  | '%' :: high :: low :: r =>
    match byte? high low with
    | some b => b :: percentDecode r
    | none => String.utf8EncodeChar '%' ++ percentDecode (high :: low :: r)
  | c :: r => String.utf8EncodeChar c ++ percentDecode r

/-! ## What the parts of an address keep -/

/-- printable ASCII other than space -/
def isPrintable (c : Char) : Bool := 0x20 < c.toNat && c.toNat < 0x7F

def keptInFragment (c : Char) : Bool := isPrintable c && !"\"<>`".toList.contains c

def keptInQuery (special : Bool) (c : Char) : Bool :=
  isPrintable c && !"\"#<>".toList.contains c && !(special && c == '\'')

def keptInPath (c : Char) : Bool := keptInFragment c && !"#?\x7b\x7d".toList.contains c

/-- within one segment of a path -/
def keptInSegment (special : Bool) (c : Char) : Bool :=
  keptInPath c && c != '/' && c != '%' && !(special && c == '\\')

def keptInUserInfo (c : Char) : Bool := keptInPath c && !"/:;=@[\\]^|".toList.contains c

/-- in a form value -/
def keptInForm (c : Char) : Bool := isLetterAscii c || isDigitAscii c || "*-._".toList.contains c

/-- form encoding of a value -/
def formEncode (s : List Char) : List Char :=
  s.flatMap fun c => if c == ' ' then ['+'] else encodeChar keptInForm c

end ClassAtlas.Web
