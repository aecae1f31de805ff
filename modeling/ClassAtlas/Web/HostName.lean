/-
The host of an address: a domain name, or an address of version 4 or 6 in any of its spellings.

A domain name is written in lower case with its labels in ASCII. A name whose last label is a number must be a version 4
address.
-/
import ClassAtlas.Web.Percent
import ClassAtlas.Web.Punycode

namespace ClassAtlas.Web

open ClassAtlas.Text

/-! ## Version 4 -/

/-- a part of a version 4 address: decimal, octal after `0`, or hexadecimal after `0x` -/
def ipv4Number? (s : List Char) : Option Nat :=
  match s with
  | [] => none
  | '0' :: 'x' :: r => numberIn 16 r
  | '0' :: 'X' :: r => numberIn 16 r
  | '0' :: c :: r => numberIn 8 (c :: r)
  | _ => numberIn 10 s

def labels (s : List Char) : List (List Char) := s.splitOnP (· == '.')

/-- the labels without an empty one at the end -/
def fullLabels (s : List Char) : List (List Char) :=
  let ls := labels s
  if ls.getLast? == some [] then ls.dropLast else ls

def endsInNumber (s : List Char) : Bool :=
  match (fullLabels s).getLast? with
  | none => false
  | some l => (!l.isEmpty && l.all isDigitAscii) || (ipv4Number? l).isSome

/-- a version 4 address as one number: the last part fills all bytes that the others leave -/
def ipv4? (s : List Char) : Option Nat := do
  let numbers ← (fullLabels s).mapM ipv4Number?
  guard (numbers.length ≤ 4)
  let last ← numbers.getLast?
  let others := numbers.dropLast
  guard (others.all (· ≤ 255) && last < Nat.pow 256 (4 - others.length))
  return (others.zipIdx.foldl (fun n (x, i) => n + x * Nat.pow 256 (3 - i)) last)

def ipv4Text (n : Nat) : String :=
  String.intercalate "." ([n / 16777216, n / 65536 % 256, n / 256 % 256, n % 256].map toString)

/-! ## Version 6 -/

/-- a version 4 address inside a version 6 one: four decimal numbers without leading zeros -/
def embeddedIpv4? (s : List Char) : Option (List Nat) := do
  let numbers ← (labels s).mapM fun l => do
    guard (!l.isEmpty && (l.length == 1 || l.head? != some '0'))
    let n ← numberIn 10 l
    guard (n ≤ 255)
    return n
  match numbers with
  | [a, b, c, d] => return [a * 256 + b, c * 256 + d]
  | _ => none

/-- up to four hexadecimal digits -/
def ipv6Piece? (s : List Char) : Option Nat := do
  guard (1 ≤ s.length && s.length ≤ 4)
  numberIn 16 s

/-- pieces between colons; the last may be a version 4 address -/
def ipv6Pieces? (allowIpv4 : Bool) : List (List Char) → Option (List Nat)
  | [] => some []
  | [l] => if allowIpv4 && l.contains '.' then embeddedIpv4? l else do return [← ipv6Piece? l]
  | l :: ls => do return (← ipv6Piece? l) :: (← ipv6Pieces? allowIpv4 ls)

/-- the pieces of a text that may be empty -/
def ipv6Side? (allowIpv4 : Bool) (s : List Char) : Option (List Nat) :=
  if s.isEmpty then some [] else ipv6Pieces? allowIpv4 (s.splitOnP (· == ':'))

/-- the texts before and after a pair of colons -/
def splitPair : List Char → Option (List Char × List Char)
  | ':' :: ':' :: r => some ([], r)
  | c :: r => (splitPair r).map fun (a, b) => (c :: a, b)
  | [] => none

/-- the eight pieces of a version 6 address; a pair of colons stands for zeros -/
def ipv6? (s : List Char) : Option (List Nat) :=
  match splitPair s with
  | none => do
    let pieces ← ipv6Side? true s
    guard (pieces.length == 8)
    return pieces
  | some (before, after) => do
    let left ← ipv6Side? false before
    let right ← ipv6Side? true after
    guard (left.length + right.length ≤ 7)
    return left ++ List.replicate (8 - left.length - right.length) 0 ++ right

/-- the length of the run of zeros at the front -/
def zeroRun (pieces : List Nat) : Nat := (pieces.takeWhile (· == 0)).length

/-- start and length of the first longest run of zeros -/
def longestRun (pieces : List Nat) : Nat × Nat :=
  (List.range pieces.length).foldl
    (fun best i => if best.2 < zeroRun (pieces.drop i) then (i, zeroRun (pieces.drop i)) else best)
    (0, 0)

def hexText (n : Nat) : String := String.ofList (Nat.toDigits 16 n)

/-- a version 6 address with its longest run of two or more zeros left out -/
def ipv6Text (pieces : List Nat) : String :=
  let join := fun (ps : List Nat) => String.intercalate ":" (ps.map hexText)
  let (start, length) := longestRun pieces
  if length < 2 then "[" ++ join pieces ++ "]"
  else "[" ++ join (pieces.take start) ++ "::" ++ join (pieces.drop (start + length)) ++ "]"

/-! ## Hosts -/

/-- characters that no host holds -/
def isForbidden (c : Char) : Bool := c == '\x00' || "\t\n\r #/:<>?@[\\]^|".toList.contains c

/-- characters that no domain name holds -/
def isForbiddenInName (c : Char) : Bool := isForbidden c || c == '%' || c.toNat ≤ 0x1F || c.toNat == 0x7F

def asciiLabel (l : List Char) : List Char :=
  if l.all Punycode.isAscii then l else "xn--".toList ++ Punycode.encode l

def bracketed? (s : List Char) : Option (List Char) :=
  match s with
  | '[' :: r => if r.getLast? == some ']' then some r.dropLast else none
  | _ => none

/-- the host of an address with a well-known scheme -/
def namedHost? (s : List Char) : Option String :=
  if s.head? == some '[' then do return ipv6Text (← ipv6? (← bracketed? s))
  else do
    let name ← (Utf8.decode (percentDecode s)).toOption
    let name := ['.'].intercalate ((labels (name.toList.map Char.toLower)).map asciiLabel)
    guard (!name.isEmpty && name.all fun c => !isForbiddenInName c)
    if endsInNumber name then return ipv4Text (← ipv4? name) else return String.ofList name

def isControl (c : Char) : Bool := c.toNat < 0x20 || 0x7F ≤ c.toNat

/-- the host of an address with any other scheme, which may be empty -/
def opaqueHost? (s : List Char) : Option String :=
  if s.head? == some '[' then do return ipv6Text (← ipv6? (← bracketed? s))
  else if s.any isForbidden then none
  else some (String.ofList (percentEncode (fun c => !isControl c) s))

end ClassAtlas.Web
