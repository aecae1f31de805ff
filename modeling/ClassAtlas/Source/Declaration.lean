/-
The declaration of a class in its file: whether it is an interface or abstract, what it extends and implements.

The patterns look for the declared name as a whole word anywhere in the text and never tokenise, so comments and string
literals are read like code.
-/
import ClassAtlas.Source.TypeList

namespace ClassAtlas.Source.Declaration

open ClassAtlas.Text ClassAtlas.Collect

def notOpeningBrace (c : Char) : Bool := c != '\x7b'

/-- the declared name as a whole word, after a keyword -/
def named (keyword : List Char) (name : List Char) : Pattern :=
  .all [.text keyword, .gap1, .text name, .boundary]

/-- an interface declaration -/
def interfaceHeader (name : List Char) : Pattern := .seq .boundary (named "interface".toList name)

/-- an abstract class declaration -/
def abstractHeader (name : List Char) : Pattern :=
  .all [.boundary, .text "abstract".toList, .gap1, named "class".toList name]

/-- a class declaration with its type parameters, if any -/
def classHeader (name : List Char) : Pattern :=
  .all [.boundary, named "class".toList name,
    .optional (.all [.gap, .char (· == '<'), .few notOpeningBrace, .char (· == '>')])]

/-- a class declaration up to the name it extends -/
def extendsLead (name : List Char) : Pattern :=
  .all [classHeader name, .gap1, .text "extends".toList, .gap1]

/-- a class declaration up to the list of what it implements -/
def implementsLead (name : List Char) : Pattern :=
  .all [classHeader name, .optional (.all [.gap1, .text "extends".toList, .gap1, .few notOpeningBrace]), .gap1,
    .text "implements".toList, .gap1]

def isInterface (name content : List Char) : Bool := (interfaceHeader name).occursIn content

def isAbstract (name content : List Char) : Bool := (abstractHeader name).occursIn content

/-- the capitalised name after `extends` -/
def parent (name content : List Char) : Option String :=
  ((extendsLead name).capture .typeName content).map String.ofList

/-- the type names after `implements`, up to the opening brace -/
def interfaces (name content : List Char) : NameSet :=
  match (implementsLead name).capture (.some1 notOpeningBrace) content with
  | none => ∅
  | some list => typeNames list

end ClassAtlas.Source.Declaration
