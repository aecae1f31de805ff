/-
How a line of source uses the type names on it.

A name counts as created when it follows `new`, as held when it stands where the type of a field stands, as taken when
it stands where a return type, constructor or parameter type stands, and as mentioned otherwise. Of several occurrences
on one line the strongest use counts.
-/
import ClassAtlas.Text.Pattern

namespace ClassAtlas.Source

open ClassAtlas.Text

/-- uses of a name, the strongest first -/
inductive Use where
  | composition
  | aggregation
  | dependency
  | association
deriving DecidableEq, Repr

namespace Use

/-- place in the order of strength, 0 for the strongest -/
def rank : Use → Nat
  | .composition => 0
  | .aggregation => 1
  | .dependency => 2
  | .association => 3

/-- the stronger of two uses -/
def max (u v : Use) : Use := if v.rank < u.rank then v else u

/-- the strongest of some uses -/
def strongest (us : List Use) : Use := us.foldl max .association

end Use

/-- a capitalised identifier standing as a whole word -/
def typeWord : Pattern := .all [.boundary, .typeName, .boundary]

/-- the word `new` and the white space after it -/
def newLead : Pattern := .all [.boundary, .text "new".toList, .gap1]

/-- what follows the type of a field: type arguments or brackets, the field's name, then `=` or `;` -/
def fieldTail : Pattern :=
  .all [.optional (.all [.gap, .char (· == '<'), .many fun c => !(c == '=' || c == ';' || c == '(' || c == ')'),
      .char (· == '>')]),
    .many fun c => c == '[' || c == ']' || c == '>' || isBlank c, .char isBlank, .memberName, .gap,
    .char fun c => c == '=' || c == ';']

/-- what follows a return type or the name of a constructor: a name or none, then an opening parenthesis -/
def signatureTail : Pattern :=
  .all [.optional (.seq .gap1 .memberName), .gap, .char (· == '(')]

/-- names created on a line -/
def createdOn (line : List Char) : List (List Char) := newLead.captures .typeName .boundary line

/-- one occurrence of a type name on a line, with the text before it, nearest character first, and after it -/
structure Occurrence where
  name : List Char
  before : List Char
  after : List Char
deriving DecidableEq, Repr

/-- the type names on a line, from left to right -/
def occurrencesOn (line : List Char) : List Occurrence :=
  (typeWord.matchesIn line).map fun (c, d) => ⟨c.upTo d, c.before, d.after⟩

/-- an opening parenthesis stands before the name, white space aside -/
def Occurrence.afterParenthesis (o : Occurrence) : Bool :=
  (o.before.dropWhile isBlank).head? == some '('

/-- the use an occurrence shows, given the names created on its line -/
def Occurrence.use (created : List (List Char)) (o : Occurrence) : Use :=
  if created.contains o.name then .composition
  else if fieldTail.startsText o.after then .aggregation
  else if signatureTail.startsText o.after || o.afterParenthesis then .dependency
  else .association

/-- each occurrence on a line with the use it shows -/
def shownOn (line : List Char) : List (List Char × Use) :=
  let created := createdOn line
  (occurrencesOn line).map fun o => (o.name, o.use created)

/-- each name on a line but the given one, with its strongest use there -/
def usesOn (own line : List Char) : List (List Char × Use) :=
  let shown := shownOn line
  ((shown.map (·.1)).eraseDups.filter fun n => n != own).map fun n =>
    (n, .strongest ((shown.filter fun x => x.1 == n).map (·.2)))

end ClassAtlas.Source
