/-
UTF-8: bytes read as text.

Bytes fall into pieces: a character, a sequence that cannot become one however it goes on, or a sequence that the end cuts
short. Strict reading takes characters only and says where the first other piece stands; lenient reading puts a
replacement character for each of them.
-/

namespace ClassAtlas.Text.Utf8

/-- a piece of a byte sequence -/
inductive Piece where
  | char (c : Char) (bytes : Nat)
  /-- bytes that begin a character and do not go on with it -/
  | invalid (bytes : Nat)
  /-- the beginning of a character, at the end -/
  | incomplete (bytes : Nat)
deriving DecidableEq, Repr

def Piece.bytes : Piece → Nat
  | .char _ n => n
  | .invalid n => n
  | .incomplete n => n

/-- the bounds of the bytes that must follow a first byte; none if no character starts with it -/
def following (first : Nat) : Option (List (Nat × Nat)) :=
  let any : Nat × Nat := (0x80, 0xBF)
  if first < 0x80 then some []
  else if first < 0xC2 then none
  else if first < 0xE0 then some [any]
  else if first == 0xE0 then some [(0xA0, 0xBF), any]
  else if first == 0xED then some [(0x80, 0x9F), any]
  else if first < 0xF0 then some [any, any]
  else if first == 0xF0 then some [(0x90, 0xBF), any, any]
  else if first < 0xF4 then some [any, any, any]
  else if first == 0xF4 then some [(0x80, 0x8F), any, any]
  else none

/-- how many bytes at the front lie in the bounds, one after another -/
def fitting : List (Nat × Nat) → List UInt8 → Nat
  | (low, high) :: bounds, b :: bs => if low ≤ b.toNat && b.toNat ≤ high then fitting bounds bs + 1 else 0
  | _, _ => 0

/-- the character of a first byte and all that follow it -/
def assemble (first : Nat) (rest : List UInt8) : Char :=
  let lead := match rest.length with
    | 0 => first
    | 1 => first % 0x20
    | 2 => first % 0x10
    | _ => first % 0x08
  Char.ofNat (rest.foldl (fun n b => n * 0x40 + b.toNat % 0x40) lead)

/-- the piece at the front -/
def piece (first : UInt8) (rest : List UInt8) : Piece :=
  match following first.toNat with
  | none => .invalid 1
  | some bounds =>
    let n := fitting bounds rest
    if n == bounds.length then .char (assemble first.toNat (rest.take n)) (n + 1)
    else if n == rest.length then .incomplete (n + 1)
    else .invalid (n + 1)

/-- the pieces of a byte sequence -/
def pieces : List UInt8 → List Piece
  | [] => []
  | b :: bs => piece b bs :: pieces (bs.drop ((piece b bs).bytes - 1))
termination_by bs => bs.length
decreasing_by simp only [List.length_drop, List.length_cons]; omega

/-- where strict reading stops, and on how many bytes; no count if the end cuts a character short -/
structure Fault where
  index : Nat
  count : Option Nat
deriving DecidableEq, Repr

def Fault.message (f : Fault) : String :=
  match f.count with
  | some n => s!"invalid utf-8 sequence of {n} bytes from index {f.index}"
  | none => s!"incomplete utf-8 byte sequence from index {f.index}"

/-- the characters of pieces that start at an index -/
def charsFrom (index : Nat) : List Piece → Except Fault (List Char)
  | [] => .ok []
  | .char c n :: ps => do return c :: (← charsFrom (index + n) ps)
  | .invalid n :: _ => .error ⟨index, some n⟩
  | .incomplete _ :: _ => .error ⟨index, none⟩

/-- strict reading -/
def decode (bs : List UInt8) : Except Fault String := (charsFrom 0 (pieces bs)).map String.ofList

/-- what stands for a piece in lenient reading -/
def Piece.lenient : Piece → Char
  | .char c _ => c
  | _ => '\ufffd'

/-- lenient reading -/
def decodeLenient (bs : List UInt8) : String := String.ofList ((pieces bs).map Piece.lenient)

/-- the bytes of a text -/
def encode (s : List Char) : List UInt8 := s.flatMap String.utf8EncodeChar

end ClassAtlas.Text.Utf8
