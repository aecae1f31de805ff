/-
TOML values, and the tables of a document while it is read.

A table remembers whether it was only implied by a longer key or header, and whether dotted keys opened it: by these two
marks the rules against defining a table twice are decided.
-/

namespace ClassAtlas.Toml

/-- a TOML value; numbers that are not integers and times are kept as written -/
inductive Value where
  | string (s : String)
  | integer (i : Int)
  | float (text : String)
  | boolean (b : Bool)
  | time (text : String)
  | array (items : List Value)
  | table (fields : List (String × Value))
deriving Repr

/-- how a table came about -/
structure Origin where
  /-- only implied by a longer key or header -/
  implied : Bool := false
  /-- opened by dotted keys -/
  dotted : Bool := false
deriving DecidableEq, Repr

/-- what a name stands for in a table that is being read -/
inductive Item where
  | value (v : Value)
  | table (origin : Origin) (fields : List (String × Item))
  | tables (all : List (List (String × Item)))
deriving Repr

mutual

/-- the finished value of an item -/
def Item.toValue : Item → Value
  | .value v => v
  | .table _ fields => .table (fieldValues fields)
  | .tables all => .array (tableValues all)

def fieldValues : List (String × Item) → List (String × Value)
  | [] => []
  | (k, i) :: r => (k, i.toValue) :: fieldValues r

def tableValues : List (List (String × Item)) → List Value
  | [] => []
  | t :: r => .table (fieldValues t) :: tableValues r

end

end ClassAtlas.Toml
