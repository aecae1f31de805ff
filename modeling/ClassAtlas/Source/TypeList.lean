/-
Lists of type names, as they follow `implements`: comments and type arguments are taken out, what is left is divided at
commas, and of a qualified name the last part counts.
-/
import ClassAtlas.Collect.NameSet
import ClassAtlas.Text.Pattern

namespace ClassAtlas.Source

open ClassAtlas.Text ClassAtlas.Collect

/-- a line comment up to its line break, or a block comment up to the first closing mark -/
def comment : Pattern :=
  .choice (.seq (.text "//".toList) (.many fun c => !isLineBreak c))
    (.all [.text "/*".toList, .few fun _ => true, .text "*/".toList])

/-- type arguments that hold no others -/
def typeArguments : Pattern :=
  .all [.char (· == '<'), .many fun c => c != '<' && c != '>', .char (· == '>')]

/-- takes out type arguments, innermost first, until none are left -/
def dropTypeArguments (s : List Char) : List Char :=
  let t := typeArguments.replaceAll [] s
  if t.length < s.length then dropTypeArguments t else s
termination_by s.length

/-- the simple name an item ends in; none if it is empty or holds a character that no type name has -/
def simpleTypeName? (item : List Char) : Option String :=
  let name := trim (afterLast (· == '.') (trim item))
  if !name.isEmpty && name.all isTypeNameChar then some (String.ofList name) else none

/-- the simple names of a list of types -/
def typeNames (s : List Char) : NameSet :=
  let flat := dropTypeArguments (comment.replaceAll [' '] s)
  NameSet.ofList ((flat.splitOnP (· == ',')).filterMap simpleTypeName?)

end ClassAtlas.Source
