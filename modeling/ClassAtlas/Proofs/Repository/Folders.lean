/-
Folders select by whole names.

The paths of a listing and the rows of the size table are selected in two places. Both compare the text of a path with
the text of a folder and one slash behind it, and each cuts slashes off the folder in its own way. What is meant is said
by names: those of the folder are the first of the path, and more follow.

- `FolderPath`: a folder by the names that lead to it. `FolderPath.Above`: it leads on to a path.
- `FolderPath.lead_prefix_iff`: the comparison of texts decides this, whatever the path looks like.
- `pathsUnder_slashed`, `rowsUnder_slashed`: both selections are the choice by names.
- `withExtension_pathsUnder`: folder and extension may be asked for in either order.
- `folders_select_by_names`: all of it, for every folder and every listing.
-/
import ClassAtlas.Proofs.Report.FolderTree
import ClassAtlas.Proofs.Repository.Selection
import ClassAtlas.Report.Folder

namespace ClassAtlas.Repository

open ClassAtlas.Report ClassAtlas.Source ClassAtlas.Text
open ClassAtlas.Report.FileTree (IsSegment pieces)

/-! ## Folders and the paths they lead on to -/

/-- a folder, by the names that lead to it -/
structure FolderPath where
  names : List String
  named : names ≠ []
  segments : ∀ name ∈ names, IsSegment name

namespace FolderPath

variable (f g : FolderPath)

/-- the names with slashes between them -/
def text : String := "/".intercalate f.names

/-- the folder that the names of the second one lead to from the first -/
def append : FolderPath where
  names := f.names ++ g.names
  named := List.append_ne_nil_of_left_ne_nil f.named g.names
  segments name hname := (List.mem_append.1 hname).elim (f.segments name) (g.segments name)

/-- a path begins with the names of the folder, and goes on behind them -/
def Above (path : String) : Prop := f.names <+: pieces path ∧ f.names ≠ pieces path

instance (path : String) : Decidable (f.Above path) := inferInstanceAs (Decidable (_ ∧ _))

theorem text_append : (f.append g).text = f.text ++ "/" ++ g.text :=
  String.intercalate_append_of_ne_nil f.named g.named

theorem pieces_text : pieces f.text = f.names := by
  have hback : String.ofList ∘ String.toList = id := funext fun name => String.ofList_toList
  rw [pieces, text, FileTree.splitOn_intercalate f.segments f.named, List.map_map, hback, List.map_id]

theorem empty_not_mem_pieces : "" ∉ pieces f.text := by
  rw [pieces_text]
  exact fun hmem => (f.segments "" hmem).1 rfl

end FolderPath

theorem pieces_append (s t : List Char) :
    pieces (String.ofList (s ++ '/' :: t)) = pieces (String.ofList s) ++ pieces (String.ofList t) := by
  simp only [pieces, String.toList_ofList]
  rw [List.splitOn_append_cons_self, List.map_append]

theorem empty_mem_pieces : "" ∈ pieces (String.ofList []) := by
  simp [pieces]

theorem pieces_ne_nil (path : String) : pieces path ≠ [] := by
  simp [pieces, List.splitOn_ne_nil]

/-- a path is the names between its slashes, put together with slashes -/
theorem intercalate_pieces (path : String) : "/".intercalate (pieces path) = path := by
  have hback : String.toList ∘ String.ofList = id := funext fun s => String.toList_ofList
  refine String.toList_inj.1 ?_
  rw [String.toList_intercalate, pieces, List.map_map, hback, List.map_id]
  exact List.intercalate_splitOn '/'

namespace FolderPath

variable {f g : FolderPath} {path : String}

theorem lead_prefix_iff : f.text.toList ++ ['/'] <+: path.toList ↔ f.Above path := by
  constructor
  · rintro ⟨rest, hrest⟩
    have hpieces : pieces path = f.names ++ pieces (String.ofList rest) := by
      have hpath : path = String.ofList (f.text.toList ++ '/' :: rest) := by
        rw [← String.toList_inj, String.toList_ofList, ← hrest, List.append_assoc, List.singleton_append]
      rw [hpath, pieces_append, String.ofList_toList, pieces_text]
    refine ⟨⟨_, hpieces.symm⟩, fun hall => pieces_ne_nil (String.ofList rest) ?_⟩
    rw [hpieces] at hall
    exact List.self_eq_append_right.1 hall
  · rintro ⟨⟨rest, hrest⟩, hall⟩
    have hne : rest ≠ [] := by
      rintro rfl
      exact hall ((List.append_nil _).symm.trans hrest)
    have hpath : f.text ++ "/" ++ "/".intercalate rest = path :=
      calc f.text ++ "/" ++ "/".intercalate rest
          = "/".intercalate (f.names ++ rest) := (String.intercalate_append_of_ne_nil f.named hne).symm
        _ = path := by rw [hrest, intercalate_pieces]
    refine ⟨("/".intercalate rest).toList, ?_⟩
    rw [← hpath, String.toList_append, String.toList_append]
    rfl

theorem isPrefixOf_lead (path : String) : (f.text.toList ++ ['/']).isPrefixOf path.toList = decide (f.Above path) := by
  rw [Bool.eq_iff_iff, List.isPrefixOf_iff_prefix, decide_eq_true_iff]
  exact lead_prefix_iff

/-- a folder within another leads on to fewer paths -/
theorem Above.of_append (h : (f.append g).Above path) : f.Above path := by
  obtain ⟨⟨rest, hrest⟩, -⟩ := h
  have hpieces : f.names ++ (g.names ++ rest) = pieces path := (List.append_assoc ..).symm.trans hrest
  refine ⟨⟨_, hpieces⟩, fun hall => ?_⟩
  rw [← hpieces] at hall
  have hnil : g.names ++ rest = [] := List.self_eq_append_right.1 hall
  exact g.named (List.append_eq_nil_iff.1 hnil).1

end FolderPath

/-! ## Slashes around a folder -/

/-- so many slashes -/
def slashes (n : Nat) : String := String.ofList (List.replicate n '/')

theorem toList_slashes (n : Nat) : (slashes n).toList = List.replicate n '/' := String.toList_ofList

theorem slash_of_mem_slashes {n : Nat} : ∀ c ∈ (slashes n).toList, (c == '/') = true := by
  intro c hc
  rw [toList_slashes] at hc
  exact beq_iff_eq.2 (List.eq_of_mem_replicate hc)

namespace FolderPath

variable (f : FolderPath)

theorem head?_text {c : Char} (h : f.text.toList.head? = some c) : (c == '/') = false := by
  refine beq_eq_false_iff_ne.2 fun hslash => f.empty_not_mem_pieces ?_
  obtain ⟨rest, hrest⟩ := List.head?_eq_some_iff.1 h
  rw [← String.ofList_toList (s := f.text), hrest, hslash, ← List.nil_append ('/' :: rest), pieces_append]
  exact List.mem_append_left _ empty_mem_pieces

theorem getLast?_text {c : Char} (h : f.text.toList.getLast? = some c) : (c == '/') = false := by
  refine beq_eq_false_iff_ne.2 fun hslash => f.empty_not_mem_pieces ?_
  obtain ⟨init, hinit⟩ := List.getLast?_eq_some_iff.1 h
  rw [← String.ofList_toList (s := f.text), hinit, hslash, pieces_append]
  exact List.mem_append_right _ empty_mem_pieces

theorem text_ne_nil : f.text.toList ≠ [] := by
  intro hnil
  refine f.empty_not_mem_pieces ?_
  rw [← String.ofList_toList (s := f.text), hnil]
  exact empty_mem_pieces

end FolderPath

variable (f g : FolderPath)

theorem pathsUnder_slashed (paths : List String) (m n : Nat) :
    pathsUnder paths (slashes m ++ f.text ++ slashes n) = paths.filter fun p => f.Above p := by
  have hfolder : dropEndWhile (· == '/') ((slashes m ++ f.text ++ slashes n).toList.dropWhile (· == '/')) =
      f.text.toList := by
    rw [String.toList_append, String.toList_append, List.append_assoc]
    exact dropEnds_append slash_of_mem_slashes (fun _ => f.head?_text) (fun _ => f.getLast?_text) slash_of_mem_slashes
  simp only [pathsUnder, hfolder]
  rw [if_neg (by simpa using f.text_ne_nil)]
  exact List.filter_congr fun p _ => FolderPath.isPrefixOf_lead p

theorem rowsUnder_slashed (rows : List SizeRow) (n : Nat) :
    rowsUnder rows (some (f.text ++ slashes n)) = rows.filter fun r => f.Above r.path := by
  have hlead : folderLead (f.text ++ slashes n) = f.text.toList ++ ['/'] := by
    rw [folderLead, String.toList_append, dropEndWhile_append (fun _ => f.getLast?_text) slash_of_mem_slashes]
  simp only [rowsUnder, hlead]
  exact List.filter_congr fun r _ => FolderPath.isPrefixOf_lead r.path

/-- what a folder within another selects, it selects of what the other selects -/
theorem filter_above_append {α : Type} (path : α → String) (l : List α) :
    ((l.filter fun a => f.Above (path a)).filter fun a => (f.append g).Above (path a)) =
      l.filter fun a => (f.append g).Above (path a) := by
  rw [List.filter_filter]
  refine List.filter_congr fun a _ => ?_
  rw [Bool.eq_iff_iff, Bool.and_eq_true, decide_eq_true_iff, decide_eq_true_iff]
  exact and_iff_left_of_imp FolderPath.Above.of_append

/-! ## Folder and extension -/

theorem withExtension_pathsUnder (paths : List String) (folder extension : String) :
    withExtension (pathsUnder paths folder) extension = pathsUnder (withExtension paths extension) folder := by
  simp only [pathsUnder]
  split_ifs
  · rfl
  · exact withExtension_filter ..

/-- **Folders select by whole names.** With any slashes before and behind it, a folder selects of a listing the paths
that begin with its names and go on, in their order and as often as they stand there. Of the size table it selects the
same rows. A folder within another may be selected in one step or in two. Folder and extension may be asked for in
either order, and the extension selects the paths that end with it, each once and in the order in which they first
occur. -/
theorem folders_select_by_names (f g : FolderPath) (paths : List String) (rows : List SizeRow) :
    (∀ m n, pathsUnder paths (slashes m ++ f.text ++ slashes n) = paths.filter fun p => f.Above p) ∧
      (∀ n, rowsUnder rows (some (f.text ++ slashes n)) = rows.filter fun r => f.Above r.path) ∧
      (∀ m n k, (rowsUnder rows (some (f.text ++ slashes k))).map (·.path) =
        pathsUnder (rows.map (·.path)) (slashes m ++ f.text ++ slashes n)) ∧
      (∀ m n m' n', pathsUnder (pathsUnder paths (slashes m ++ f.text ++ slashes n))
          (slashes m' ++ (f.text ++ "/" ++ g.text) ++ slashes n') =
        pathsUnder paths (slashes m' ++ (f.text ++ "/" ++ g.text) ++ slashes n')) ∧
      (∀ n n', rowsUnder (rowsUnder rows (some (f.text ++ slashes n))) (some (f.text ++ "/" ++ g.text ++ slashes n')) =
        rowsUnder rows (some (f.text ++ "/" ++ g.text ++ slashes n'))) ∧
      ∀ extension,
        (∀ folder, withExtension (pathsUnder paths folder) extension =
          pathsUnder (withExtension paths extension) folder) ∧
        ∀ l, l = withExtension paths extension ↔
          l.Nodup ∧ (∀ p, p ∈ l ↔ p ∈ paths ∧ extension.toList <:+ p.toList) ∧
            l.Pairwise fun p q => paths.idxOf p < paths.idxOf q := by
  refine ⟨pathsUnder_slashed f paths, rowsUnder_slashed f rows, fun m n k => ?_, fun m n m' n' => ?_,
    fun n n' => ?_, fun extension => ⟨fun folder => withExtension_pathsUnder paths folder extension,
      fun l => eq_withExtension_iff⟩⟩
  · rw [rowsUnder_slashed, pathsUnder_slashed, List.filter_map]
    rfl
  · rw [← f.text_append g, pathsUnder_slashed, pathsUnder_slashed, pathsUnder_slashed]
    exact filter_above_append f g id paths
  · rw [← f.text_append g, rowsUnder_slashed, rowsUnder_slashed, rowsUnder_slashed]
    exact filter_above_append f g SizeRow.path rows

-- a neighbour that only starts like the folder, a doubled slash, the folder itself, and a path given twice
example : pathsUnder ["src/A.java", "srcx/B.java", "src//C.java", "src", "src/A.java"] "//src/" =
    ["src/A.java", "src//C.java", "src/A.java"] := by decide +kernel

end ClassAtlas.Repository
