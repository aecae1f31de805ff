/-
TOML strings, numbers, times and keys, each read from the front of a text.

A reader gives the value and the rest of the text, or nothing where the text does not start with such a value.
-/
import ClassAtlas.Text.Digit
import ClassAtlas.Toml.Value

namespace ClassAtlas.Toml

open ClassAtlas.Text

/-- a reader of what stands at the front of a text -/
abbrev Scan (α : Type) := List Char → Option (α × List Char)

/-! ## Characters -/

def isSpace (c : Char) : Bool := c == ' ' || c == '\t'

/-- characters that need no escape: all but control characters, tab apart -/
def isPlain (c : Char) : Bool := c == '\t' || (32 ≤ c.toNat && c.toNat != 127)

def dropSpace (s : List Char) : List Char := s.dropWhile isSpace

/-- a line feed, or a carriage return and line feed -/
def newline? : List Char → Option (List Char)
  | '\n' :: r => some r
  | '\r' :: '\n' :: r => some r
  | _ => none

/-- the character of a code point, surrogates apart -/
def scalar? (n : Nat) : Option Char := if n.isValidChar then some (Char.ofNat n) else none

/-! ## Strings -/

/-- the character an escape stands for, after its backslash -/
def escape : Scan Char
  | 'b' :: r => some ('\x08', r)
  | 't' :: r => some ('\t', r)
  | 'n' :: r => some ('\n', r)
  | 'f' :: r => some ('\x0c', r)
  | 'r' :: r => some ('\r', r)
  | '"' :: r => some ('"', r)
  | '\\' :: r => some ('\\', r)
  | 'u' :: r => do
    guard (4 ≤ r.length)
    return (← scalar? (← numberIn 16 (r.take 4)), r.drop 4)
  | 'U' :: r => do
    guard (8 ≤ r.length)
    return (← scalar? (← numberIn 16 (r.take 8)), r.drop 8)
  | _ => none

/-- a basic string up to its closing quote; the first argument bounds its length -/
def basicBody : Nat → Scan (List Char)
  | 0, _ => none
  | n + 1, s =>
    match s with
    | '"' :: r => some ([], r)
    | '\\' :: r => do
      let (c, r) ← escape r
      let (cs, r) ← basicBody n r
      return (c :: cs, r)
    | c :: r => do
      guard (isPlain c)
      let (cs, r) ← basicBody n r
      return (c :: cs, r)
    | [] => none

/-- a literal string up to its closing quote -/
def literalBody : Scan (List Char)
  | '\'' :: r => some ([], r)
  | c :: r => do
    guard (isPlain c)
    let (cs, r) ← literalBody r
    return (c :: cs, r)
  | [] => none

/-- the text without a line break at its start -/
def dropNewline (s : List Char) : List Char := (newline? s).getD s

/-- after a backslash: white space with a line break in it, all of which is skipped -/
def lineContinuation? (s : List Char) : Option (List Char) := do
  let r ← newline? (dropSpace s)
  return r.dropWhile fun c => isSpace c || c == '\n' || c == '\r'

/-- a string of several lines up to its closing quotes; a run of three to five quotes closes it, and its first two quotes
may belong to the string -/
def longBody (quote : Char) (escapes : Bool) : Nat → Scan (List Char)
  | 0, _ => none
  | n + 1, s =>
    let quotes := s.takeWhile (· == quote)
    if 3 ≤ quotes.length then
      let taken := min 5 quotes.length
      some (List.replicate (taken - 3) quote, s.drop taken)
    else
      match s with
      | [] => none
      | c :: r =>
        match newline? s with
        | some r => do
          let (cs, r) ← longBody quote escapes n r
          return ('\n' :: cs, r)
        | none =>
          if escapes && c == '\\' then
            match lineContinuation? r with
            | some r => longBody quote escapes n r
            | none => do
              let (c, r) ← escape r
              let (cs, r) ← longBody quote escapes n r
              return (c :: cs, r)
          else do
            guard (isPlain c)
            let (cs, r) ← longBody quote escapes n r
            return (c :: cs, r)

/-- a string on one line, after its opening quote -/
def shortString (quote : Char) (r : List Char) : Option (List Char × List Char) :=
  if quote == '"' then basicBody (r.length + 1) r else literalBody r

/-- a string in any of the four forms -/
def string : Scan String
  | [] => none
  | q :: r => do
    guard (q == '"' || q == '\'')
    let (cs, rest) ←
      if [q, q].isPrefixOf r then
        let body := dropNewline (r.drop 2)
        longBody q (q == '"') (body.length + 1) body
      else shortString q r
    return (String.ofList cs, rest)

/-! ## Keys -/

def isBareKeyChar (c : Char) : Bool := isLetterAscii c || isDigitAscii c || c == '_' || c == '-'

/-- one part of a key: bare, or a string on one line -/
def keyPart : Scan String
  | [] => none
  | c :: r =>
    if c == '"' || c == '\'' then do
      let (cs, rest) ← shortString c r
      return (String.ofList cs, rest)
    else
      let name := (c :: r).takeWhile isBareKeyChar
      if name.isEmpty then none else some (String.ofList name, (c :: r).drop name.length)

/-- nesting of keys, arrays and inline tables stays below this -/
def depthLimit : Nat := 80

/-- the parts after the first, each after a dot; the first argument bounds their number -/
def keyRest : Nat → Scan (List String)
  | 0, _ => none
  | n + 1, s =>
    match dropSpace s with
    | '.' :: r => do
      let (part, r) ← keyPart (dropSpace r)
      let (parts, r) ← keyRest n r
      return (part :: parts, r)
    | r => some ([], r)

/-- a key, dotted or not, with the white space around its parts -/
def key (s : List Char) : Option (List String × List Char) := do
  let (part, r) ← keyPart (dropSpace s)
  let (parts, r) ← keyRest (r.length + 1) r
  guard (parts.length + 1 < depthLimit)
  return (part :: parts, r)

/-! ## Numbers -/

/-- digits with single underscores between them, the underscores left out -/
def underscored (isDigit : Char → Bool) : List Char → Option (List Char)
  | [] => none
  | [c] => if isDigit c then some [c] else none
  | c :: '_' :: d :: r => do
    guard (isDigit c)
    let ds ← underscored isDigit (d :: r)
    return c :: ds
  | c :: d :: r => do
    guard (isDigit c)
    let ds ← underscored isDigit (d :: r)
    return c :: ds

def isHexDigit (c : Char) : Bool := (digit? c).isSome

/-- decimal digits without a leading zero -/
def decimal? (s : List Char) : Option (List Char) := do
  let ds ← underscored isDigitAscii s
  guard (ds.length == 1 || ds.head? != some '0')
  return ds

/-- the sign of a number, and the rest -/
def sign (s : List Char) : Bool × List Char :=
  match s with
  | '+' :: r => (false, r)
  | '-' :: r => (true, r)
  | _ => (false, s)

/-- an integer of 64 bits -/
def inWord (i : Int) : Option Int :=
  if -9223372036854775808 ≤ i && i ≤ 9223372036854775807 then some i else none

/-- an integer in base 10, or in base 16, 8 or 2 without a sign, that fits in 64 bits -/
def integer? (s : List Char) : Option Int :=
  match s with
  | '0' :: 'x' :: r => do inWord (← numberIn 16 (← underscored isHexDigit r))
  | '0' :: 'o' :: r => do inWord (← numberIn 8 (← underscored isDigitAscii r))
  | '0' :: 'b' :: r => do inWord (← numberIn 2 (← underscored isDigitAscii r))
  | _ =>
    let (negative, r) := sign s
    do
      let n ← numberIn 10 (← decimal? r)
      inWord (if negative then -n else n)

/-- a power of ten, with its sign -/
def exponent? (s : List Char) : Option Int := do
  let (negative, r) := sign s
  let n ← numberIn 10 (← underscored isDigitAscii r)
  return if negative then -n else n

/-- whether `m · 10 ^ k` is too great for double precision -/
def overflows (m : Nat) (k : Int) : Bool :=
  let top := ((toString m).length : Int) + k
  if m == 0 || top < 300 then false
  else if 310 < top then true
  else
    let bound := Nat.pow 2 1024 - Nat.pow 2 970
    match k with
    | .ofNat j => bound ≤ m * Nat.pow 10 j
    | .negSucc j => bound * Nat.pow 10 (j + 1) ≤ m

def isExponentMark (c : Char) : Bool := c == 'e' || c == 'E'

/-- whether a text writes a number with a fraction or an exponent; a positive one must not be too great -/
def isFloat (s : List Char) : Bool :=
  let (negative, r) := sign s
  if r == "inf".toList || r == "nan".toList then true
  else
    let mantissa := r.takeWhile fun c => !isExponentMark c
    let whole := mantissa.takeWhile fun c => c != '.'
    let fraction := (mantissa.drop whole.length).drop 1
    let hasFraction := whole.length < mantissa.length
    let hasExponent := mantissa.length < r.length
    let parts := do
      let w ← decimal? whole
      let f ← if hasFraction then underscored isDigitAscii fraction else some []
      let e ← if hasExponent then exponent? (r.drop (mantissa.length + 1)) else some 0
      let m ← numberIn 10 (w ++ f)
      return (m, e - f.length)
    (hasFraction || hasExponent) &&
      match parts with
      | none => false
      | some (m, k) => negative || !overflows m k

/-! ## Times -/

/-- two digits within bounds -/
def twoDigits? (low high : Nat) (a b : Char) : Option Nat := do
  guard (isDigitAscii a && isDigitAscii b)
  let n := (a.toNat - 48) * 10 + (b.toNat - 48)
  guard (low ≤ n && n ≤ high)
  return n

def daysIn (year month : Nat) : Nat :=
  if month == 2 then if year % 4 == 0 && (year % 100 != 0 || year % 400 == 0) then 29 else 28
  else if month == 4 || month == 6 || month == 9 || month == 11 then 30
  else 31

/-- year, month and day at the front of a text -/
def date? : List Char → Option (List Char)
  | y1 :: y2 :: y3 :: y4 :: '-' :: m1 :: m2 :: '-' :: d1 :: d2 :: r => do
    let century ← twoDigits? 0 99 y1 y2
    let rest ← twoDigits? 0 99 y3 y4
    let month ← twoDigits? 1 12 m1 m2
    let day ← twoDigits? 1 31 d1 d2
    guard (day ≤ daysIn (century * 100 + rest) month)
    return r
  | _ => none

/-- hours, minutes and seconds, with a fraction or without, at the front of a text -/
def clock? : List Char → Option (List Char)
  | h1 :: h2 :: ':' :: m1 :: m2 :: ':' :: s1 :: s2 :: r => do
    let _ ← twoDigits? 0 23 h1 h2
    let _ ← twoDigits? 0 59 m1 m2
    let _ ← twoDigits? 0 60 s1 s2
    match r with
    | '.' :: f =>
      guard ((f.head?.any isDigitAscii))
      return f.dropWhile isDigitAscii
    | _ => return r
  | _ => none

/-- nothing, or an offset from universal time -/
def isOffset : List Char → Bool
  | [] => true
  | ['Z'] => true
  | ['z'] => true
  | [s, h1, h2, ':', m1, m2] =>
    (s == '+' || s == '-') && (twoDigits? 0 23 h1 h2).isSome && (twoDigits? 0 59 m1 m2).isSome
  | _ => false

/-- a clock time with an offset or without -/
def isClock (s : List Char) : Bool :=
  match clock? s with
  | none => false
  | some r => isOffset r

/-- a date, a clock time, or both with an offset or without -/
def isTime (s : List Char) : Bool :=
  match date? s with
  | some [] => true
  | some (c :: r) => (c == 'T' || c == 't' || c == ' ') && isClock r
  | none => clock? s == some []

/-! ## Plain values -/

/-- characters of numbers, times and truth values -/
def isTokenChar (c : Char) : Bool :=
  isLetterAscii c || isDigitAscii c || c == '_' || c == '+' || c == '-' || c == '.' || c == ':'

/-- the token at the front of a text; a date may be followed by a space and a clock time -/
def token (s : List Char) : List Char × List Char :=
  let t := s.takeWhile isTokenChar
  let r := s.drop t.length
  match date? t, r with
  | some [], ' ' :: r' =>
    let u := r'.takeWhile isTokenChar
    if u.head?.any isDigitAscii then (t ++ ' ' :: u, r'.drop u.length) else (t, r)
  | _, _ => (t, r)

/-- the value of a token -/
def tokenValue? (t : List Char) : Option Value :=
  if t == "true".toList then some (.boolean true)
  else if t == "false".toList then some (.boolean false)
  else if isTime t then some (.time (String.ofList t))
  else if isFloat t then some (.float (String.ofList t))
  else (integer? t).map .integer

/-- a number, a time or a truth value -/
def plainValue (s : List Char) : Option (Value × List Char) := do
  let (t, r) := token s
  return (← tokenValue? t, r)

end ClassAtlas.Toml
