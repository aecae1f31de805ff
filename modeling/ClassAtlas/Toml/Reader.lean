/-
TOML documents: values, keys with their values, table headers, and the tables they build.
-/
import ClassAtlas.Toml.Scalar

namespace ClassAtlas.Toml

/-! ## Tables being built -/

abbrev Fields := List (String × Item)

/-- changes what a name stands for, or gives it a meaning at the end -/
def alter (name : String) (f : Option Item → Option Item) : Fields → Option Fields
  | [] => (f none).map fun i => [(name, i)]
  | (k, i) :: r =>
    if k == name then (f (some i)).map fun j => (k, j) :: r
    else (alter name f r).map ((k, i) :: ·)

/-- puts a key and its value into a table: dotted keys lead through tables that only dotted keys opened -/
def insertDotted (origin : Origin) (v : Value) : List String → Fields → Option Fields
  | [], _ => none
  | [name], fields => do
    guard (origin.dotted == true || origin.implied == false)
    alter name (fun
      | none => some (.value v)
      | some _ => none) fields
  | name :: next :: rest, fields =>
    alter name (fun
      | none => (insertDotted ⟨true, true⟩ v (next :: rest) []).map (.table ⟨true, true⟩)
      | some (.table o fs) => do
        guard (o.implied && (o.dotted || !rest.isEmpty))
        (insertDotted o v (next :: rest) fs).map (.table o)
      | some _ => none) fields

/-- leads along a header's path and changes the table at its end -/
def alterTable (f : Option Item → Option Item) : List String → Fields → Option Fields
  | [], _ => none
  | [name], fields => alter name f fields
  | name :: next :: rest, fields =>
    alter name (fun
      | none => (alterTable f (next :: rest) []).map (.table ⟨true, false⟩)
      | some (.table o fs) => (alterTable f (next :: rest) fs).map (.table o)
      | some (.tables all) =>
        match all.reverse with
        | [] => none
        | last :: earlier =>
          (alterTable f (next :: rest) last).map fun t => .tables (earlier.reverse ++ [t])
      | some (.value _) => none) fields

/-- opens a table by its header; it must not be defined yet -/
def openTable : Option Item → Option Item
  | none => some (.table {} [])
  | some (.table o fs) => if o.implied && !o.dotted then some (.table {} fs) else none
  | some _ => none

/-- opens one more table of an array of tables -/
def openElement : Option Item → Option Item
  | none => some (.tables [[]])
  | some (.tables all) => some (.tables (all ++ [[]]))
  | some _ => none

/-- puts a key and its value into the table, or the last element, at the end of a header's path -/
def fill (path : List String) (v : Value) : Option Item → Option Item
  | some (.table o fs) => (insertDotted o v path fs).map (.table o)
  | some (.tables all) =>
    match all.reverse with
    | [] => none
    | last :: earlier => (insertDotted {} v path last).map fun t => .tables (earlier.reverse ++ [t])
  | _ => none

/-! ## Values -/

/-- a comment up to its line break -/
def dropComment : List Char → Option (List Char)
  | '#' :: r =>
    let rest := r.dropWhile isPlain
    if rest.isEmpty || (newline? rest).isSome then some rest else none
  | s => some s

/-- white space, comments and line breaks; the first argument bounds their number -/
def dropBlank : Nat → List Char → Option (List Char)
  | 0, _ => none
  | n + 1, s => do
    let r ← dropComment (dropSpace s)
    match newline? r with
    | some r => dropBlank n r
    | none => some r

def skipBlank (s : List Char) : Option (List Char) := dropBlank (s.length + 1) s

/-- the items of an array after its opening bracket; a comma may follow the last -/
def arrayItems (value : Scan Value) : Nat → Scan (List Value)
  | 0, _ => none
  | n + 1, s => do
    match ← skipBlank s with
    | ']' :: r => return ([], r)
    | r =>
      let (v, r) ← value r
      match ← skipBlank r with
      | ',' :: r =>
        let (vs, r) ← arrayItems value n r
        return (v :: vs, r)
      | ']' :: r => return ([v], r)
      | _ => none

/-- a key, an equals sign and a value -/
def keyValue (value : Scan Value) (s : List Char) : Option ((List String × Value) × List Char) := do
  let (k, r) ← key s
  match r with
  | '=' :: r =>
    let (v, r) ← value (dropSpace r)
    return ((k, v), r)
  | _ => none

/-- the pairs of an inline table after the first or a comma -/
def inlinePairs (value : Scan Value) : Nat → Fields → Scan Fields
  | 0, _, _ => none
  | n + 1, fields, s => do
    let ((k, v), r) ← keyValue value s
    let fields ← insertDotted {} v k fields
    match dropSpace r with
    | ',' :: r => inlinePairs value n fields r
    | '\x7d' :: r => return (fields, r)
    | _ => none

/-- an inline table after its opening brace -/
def inlineTable (value : Scan Value) (s : List Char) : Option (Fields × List Char) :=
  match dropSpace s with
  | '\x7d' :: r => some ([], r)
  | r => inlinePairs value (r.length + 1) [] r

/-- a value whose arrays and inline tables nest no deeper than given -/
def valueWithin : Nat → Scan Value
  | depth, s =>
    match s with
    | '"' :: _ => (string s).map fun (x, r) => (.string x, r)
    | '\'' :: _ => (string s).map fun (x, r) => (.string x, r)
    | '[' :: r =>
      match depth with
      | 0 => none
      | d + 1 => (arrayItems (valueWithin d) (r.length + 1) r).map fun (vs, r) => (.array vs, r)
    | '\x7b' :: r =>
      match depth with
      | 0 => none
      | d + 1 => (inlineTable (valueWithin d) r).map fun (fs, r) => (.table (fieldValues fs), r)
    | _ => plainValue s

def value : Scan Value := valueWithin (depthLimit - 1)

/-! ## Documents -/

/-- nothing but white space and a comment up to the line break or the end -/
def endLine (s : List Char) : Option (List Char) := do
  match ← dropComment (dropSpace s) with
  | [] => return []
  | r => newline? r

/-- a document that is being read: its tables, and the path of the header the next keys belong to -/
structure Draft where
  root : Fields := []
  path : List String := []

/-- an expression: a header, or a key and its value; the marks of a header enclose its key -/
def expression (d : Draft) (s : List Char) : Option (Draft × List Char) :=
  match s with
  | '[' :: '[' :: r => do
    let (k, r) ← key r
    match r with
    | ']' :: ']' :: r => return (⟨← alterTable openElement k d.root, k⟩, r)
    | _ => none
  | '[' :: r => do
    let (k, r) ← key r
    match r with
    | ']' :: r => return (⟨← alterTable openTable k d.root, k⟩, r)
    | _ => none
  | _ => do
    let ((k, v), r) ← keyValue value s
    if d.path.isEmpty then return ({ d with root := ← insertDotted {} v k d.root }, r)
    else return ({ d with root := ← alterTable (fill k v) d.path d.root }, r)

/-- the lines of a document; the first argument bounds their number -/
def documentLines : Nat → Draft → List Char → Option Draft
  | 0, _, _ => none
  | n + 1, d, s =>
    match dropSpace s with
    | [] => some d
    | r => do
      match newline? r with
      | some r => documentLines n d r
      | none =>
        if r.head? == some '#' then documentLines n d (← endLine r)
        else
          let (d, r) ← expression d r
          documentLines n d (← endLine r)

/-- the fields of a document, a byte order mark in front aside -/
def parse (s : List Char) : Option (List (String × Value)) :=
  let s := if s.head? == some '\ufeff' then s.drop 1 else s
  (documentLines (s.length + 1) {} s).map fun d => fieldValues d.root

end ClassAtlas.Toml
