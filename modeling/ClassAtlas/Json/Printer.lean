/-
JSON written for people: two spaces per level, each item and field on a line of its own.
-/
import ClassAtlas.Decimal.Shortest
import ClassAtlas.Text.Digit

namespace ClassAtlas.Json

open ClassAtlas.Decimal ClassAtlas.Text

inductive Document where
  | text (s : String)
  | count (n : Nat)
  | real (x : Float)
  | list (items : List Document)
  | record (fields : List (String × Document))

/-- a character inside quotes -/
def quotedChar (c : Char) : List Char :=
  match c with
  | '"' => ['\\', '"']
  | '\\' => ['\\', '\\']
  | '\x08' => ['\\', 'b']
  | '\x0c' => ['\\', 'f']
  | '\n' => ['\\', 'n']
  | '\r' => ['\\', 'r']
  | '\t' => ['\\', 't']
  | c => if c.toNat < 0x20 then ['\\', 'u', '0', '0', lowerDigit (c.toNat / 16), lowerDigit (c.toNat % 16)] else [c]

def quoted (s : String) : String := String.ofList ('"' :: s.toList.flatMap quotedChar ++ ['"'])

/-- items between brackets, each on a line at the level below -/
def block (opening closing : String) (level : Nat) (items : List String) : String :=
  if items.isEmpty then opening ++ closing
  else
    let indent := fun n => "\n" ++ String.ofList (List.replicate (2 * n) ' ')
    opening ++ String.intercalate "," (items.map (indent (level + 1) ++ ·)) ++ indent level ++ closing

mutual

def Document.render (level : Nat) : Document → String
  | .text s => quoted s
  | .count n => toString n
  | .real x => (shortest? x).getD "null"
  | .list items => block "[" "]" level (renderItems (level + 1) items)
  | .record fields => block "\x7b" "\x7d" level (renderFields (level + 1) fields)

def renderItems (level : Nat) : List Document → List String
  | [] => []
  | d :: ds => d.render level :: renderItems level ds

def renderFields (level : Nat) : List (String × Document) → List String
  | [] => []
  | (k, d) :: ds => (quoted k ++ ": " ++ d.render level) :: renderFields level ds

end

/-- the whole document -/
def Document.pretty (d : Document) : String := d.render 0

end ClassAtlas.Json
