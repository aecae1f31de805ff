/-
JSON read from bytes.

Strings stay as they are written: a string that nobody looks at may hold bytes that are no text. `Raw.text?` gives the
text of one. Bytes are handled as characters below 256.
-/
import ClassAtlas.Text.Digit
import ClassAtlas.Text.Utf8

namespace ClassAtlas.Json

open ClassAtlas.Text

inductive Raw where
  | null
  | bool (b : Bool)
  | number
  /-- what stands between the quotes -/
  | string (written : List Char)
  | array (items : List Raw)
  | object (fields : List (List Char × Raw))
deriving Repr

def dropSpace (s : List Char) : List Char := s.dropWhile fun c => c == ' ' || c == '\t' || c == '\n' || c == '\r'

/-- the number that four digits write -/
def unit? (a b c d : Char) : Option Nat := numberIn 16 [a, b, c, d]

/-! ## Strings -/

/-- the character a short escape stands for -/
def shortEscape? (c : Char) : Option Char :=
  match c with
  | '"' => some '"'
  | '\\' => some '\\'
  | '/' => some '/'
  | 'b' => some '\x08'
  | 'f' => some '\x0c'
  | 'n' => some '\n'
  | 'r' => some '\r'
  | 't' => some '\t'
  | _ => none

/-- what is written up to the closing quote; escapes must be well formed -/
def written : List Char → Option (List Char × List Char)
  | [] => none
  | '"' :: r => some ([], r)
  | '\\' :: 'u' :: a :: b :: c :: d :: r => do
    let _ ← unit? a b c d
    let (w, rest) ← written r
    return ('\\' :: 'u' :: a :: b :: c :: d :: w, rest)
  | '\\' :: e :: r => do
    let _ ← shortEscape? e
    let (w, rest) ← written r
    return ('\\' :: e :: w, rest)
  | c :: r => do
    guard (0x20 ≤ c.toNat && c != '\\')
    let (w, rest) ← written r
    return (c :: w, rest)

def bytesOf (c : Char) : List UInt8 := String.utf8EncodeChar c

def isHighSurrogate (n : Nat) : Bool := 0xD800 ≤ n && n ≤ 0xDBFF

def isLowSurrogate (n : Nat) : Bool := 0xDC00 ≤ n && n ≤ 0xDFFF

/-- the bytes of a written string; a surrogate must be one of a pair -/
def unescape : List Char → Option (List UInt8)
  | [] => some []
  | '\\' :: 'u' :: a :: b :: c :: d :: '\\' :: 'u' :: e :: f :: g :: h :: r => do
    let n ← unit? a b c d
    if isHighSurrogate n then
      let m ← unit? e f g h
      guard (isLowSurrogate m)
      return bytesOf (Char.ofNat (0x10000 + (n - 0xD800) * 0x400 + (m - 0xDC00))) ++ (← unescape r)
    else
      guard (!isLowSurrogate n)
      return bytesOf (Char.ofNat n) ++ (← unescape ('\\' :: 'u' :: e :: f :: g :: h :: r))
  | '\\' :: 'u' :: a :: b :: c :: d :: r => do
    let n ← unit? a b c d
    guard (!isHighSurrogate n && !isLowSurrogate n)
    return bytesOf (Char.ofNat n) ++ (← unescape r)
  | '\\' :: e :: r => do return bytesOf (← shortEscape? e) ++ (← unescape r)
  | c :: r => do return c.toNat.toUInt8 :: (← unescape r)

/-- the text of a written string; none if its bytes are none -/
def text? (w : List Char) : Option String := do (Utf8.decode (← unescape w)).toOption

/-! ## Numbers -/

/-- at least one digit -/
def digits? (s : List Char) : Option (List Char) :=
  if s.head?.any isDigitAscii then some (s.dropWhile isDigitAscii) else none

/-- what follows a number: an integer without leading zeros, a fraction, an exponent -/
def number? (s : List Char) : Option (List Char) := do
  let s := if s.head? == some '-' then s.drop 1 else s
  let s ← match s with
    | '0' :: r => if r.head?.any isDigitAscii then none else some r
    | _ => digits? s
  let s ← match s with
    | '.' :: r => digits? r
    | _ => some s
  match s with
  | c :: r =>
    if c == 'e' || c == 'E' then digits? (if r.head?.any fun d => d == '+' || d == '-' then r.drop 1 else r)
    else return s
  | [] => return s

/-! ## Values -/

mutual

/-- a value at the front; the first argument bounds its length -/
def value : Nat → List Char → Option (Raw × List Char)
  | 0, _ => none
  | n + 1, s =>
    match dropSpace s with
    | '"' :: r => (written r).map fun (w, rest) => (.string w, rest)
    | '[' :: r =>
      match dropSpace r with
      | ']' :: rest => some (.array [], rest)
      | r => (items n r).map fun (xs, rest) => (.array xs, rest)
    | '\x7b' :: r =>
      match dropSpace r with
      | '\x7d' :: rest => some (.object [], rest)
      | r => (fields n r).map fun (xs, rest) => (.object xs, rest)
    | 'n' :: 'u' :: 'l' :: 'l' :: r => some (.null, r)
    | 't' :: 'r' :: 'u' :: 'e' :: r => some (.bool true, r)
    | 'f' :: 'a' :: 'l' :: 's' :: 'e' :: r => some (.bool false, r)
    | r => (number? r).map fun rest => (.number, rest)

/-- the items of an array up to its closing bracket -/
def items : Nat → List Char → Option (List Raw × List Char)
  | 0, _ => none
  | n + 1, s => do
    let (x, r) ← value n s
    match dropSpace r with
    | ',' :: r =>
      let (xs, rest) ← items n r
      return (x :: xs, rest)
    | ']' :: rest => return ([x], rest)
    | _ => none

/-- the fields of an object up to its closing brace -/
def fields : Nat → List Char → Option (List (List Char × Raw) × List Char)
  | 0, _ => none
  | n + 1, s =>
    match dropSpace s with
    | '"' :: r => do
      let (k, r) ← written r
      match dropSpace r with
      | ':' :: r =>
        let (x, r) ← value n r
        match dropSpace r with
        | ',' :: r =>
          let (xs, rest) ← fields n r
          return ((k, x) :: xs, rest)
        | '\x7d' :: rest => return ([(k, x)], rest)
        | _ => none
      | _ => none
    | _ => none

end

/-- a whole text that is one value -/
def parse (bytes : List UInt8) : Option Raw := do
  let s := bytes.map fun b => Char.ofNat b.toNat
  let (v, rest) ← value (2 * s.length + 1) s
  guard (dropSpace rest).isEmpty
  return v

/-! ## Records -/

/-- whether a name occurs twice -/
def repeats : List String → Bool
  | [] => false
  | n :: ns => ns.contains n || repeats ns

/-- the known fields of a record: of an object, none of them twice, or of an array of their values in order -/
def Raw.record? (names : List String) : Raw → Option (List (String × Raw))
  | .object fs => do
    let known ← fs.mapM fun (k, v) => do return (← text? k, v)
    let known := known.filter fun (k, _) => names.contains k
    guard (!repeats (known.map (·.1)))
    return known
  | .array xs => if names.length < xs.length then none else some (names.zip xs)
  | _ => none

def Raw.string? : Raw → Option String
  | .string w => text? w
  | _ => none

def Raw.array? : Raw → Option (List Raw)
  | .array xs => some xs
  | _ => none

def Raw.bool? : Raw → Option Bool
  | .bool b => some b
  | _ => none

end ClassAtlas.Json
