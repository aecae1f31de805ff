/-
The folder tree of the analysed files.

Folders come before files, and both keep the order in which paths first name them. `insert` puts one path into a tree,
`render` writes a tree with two spaces per level and a slash after each folder.
-/
import ClassAtlas.Source.Size
import ClassAtlas.Text.Blank

namespace ClassAtlas.Report

open ClassAtlas.Source ClassAtlas.Text

/-- a folder's subfolders, by name, and its files -/
inductive FileTree where
  | node (folders : List (String × FileTree)) (files : List String)
deriving Repr

namespace FileTree

def folders : FileTree → List (String × FileTree)
  | node fs _ => fs

def files : FileTree → List String
  | node _ fs => fs

def empty : FileTree := node [] []

/-- changes the first subfolder of a name; without one, opens it at the end -/
def alterFolder (name : String) (f : FileTree → FileTree) : List (String × FileTree) → List (String × FileTree)
  | [] => [(name, f empty)]
  | (n, t) :: r => if n == name then (n, f t) :: r else (n, t) :: alterFolder name f r

/-- puts a file, given as the names that lead to it -/
def insertParts : List String → FileTree → FileTree
  | [], t => t
  | [name], node folders files => node folders (if files.contains name then files else files ++ [name])
  | name :: next :: rest, node folders files => node (alterFolder name (insertParts (next :: rest)) folders) files

/-- the names that lead to a path: its parts between slashes that are not empty -/
def pathParts (path : String) : List String := (segments (· == '/') path.toList).map String.ofList

def insert (t : FileTree) (path : String) : FileTree := insertParts (pathParts path) t

/-- the tree of the rows' paths -/
def ofRows (rows : List SizeRow) : FileTree := rows.foldl (fun t r => t.insert r.path) empty

def indent (depth : Nat) : String := String.ofList (List.replicate (2 * depth) ' ')

mutual

/-- a tree at a depth -/
def renderAt (depth : Nat) : FileTree → String
  | node folders files => renderFolders depth folders ++ String.join (files.map fun f => indent depth ++ f ++ "\n")

/-- subfolders at a depth, each with its own tree one level deeper -/
def renderFolders (depth : Nat) : List (String × FileTree) → String
  | [] => ""
  | (name, t) :: rest => indent depth ++ name ++ "/\n" ++ renderAt (depth + 1) t ++ renderFolders depth rest

end

def render (t : FileTree) : String := renderAt 0 t

end FileTree

end ClassAtlas.Report
