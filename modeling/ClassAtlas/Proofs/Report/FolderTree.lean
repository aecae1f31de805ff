/-
What the folder tree of the size table holds: every file once, in its folder, in the order in which the rows name it.

A path is put into a tree by walking down the folders that are there and opening the others; its last name becomes a
file. It touches one way through the tree only, so what a node holds is said by the paths that lead through the node.

- `Grown paths t`: `t` is what a list of paths makes of an empty tree, said node by node: folders and files are named by
  the first paths that name them, and each folder is grown from what is left of the paths that lead through it.
- `namesIn`: the names in a path, by dividing it at its slashes.
- `Grown.insertParts`, `grown_ofRows`: one more path keeps a tree grown, so the tree of any rows is.
- `Grown.mem_leaves`, `Grown.leaves_nodup`: the files of a grown tree are its paths, each once.
- `tree_faithful`: what this says of the tree of some rows.
-/
import Mathlib.Data.List.Nodup
import ClassAtlas.Collect.KeepFirst
import ClassAtlas.Proofs.Text.Words
import ClassAtlas.Report.Tree

namespace ClassAtlas.Report.FileTree

open ClassAtlas.Collect ClassAtlas.Source ClassAtlas.Text

variable {t child n : FileTree} {paths : List (List String)} {parts loc : List String} {name : String}

/-! ## Nodes and files of a tree -/

/-- `n` is the node of a tree that the names of some folders lead to -/
inductive IsNode : FileTree → List String → FileTree → Prop
  | root (t : FileTree) : IsNode t [] t
  | under {t child n : FileTree} {name : String} {loc : List String} (folder : (name, child) ∈ t.folders)
      (below : IsNode child loc n) : IsNode t (name :: loc) n

mutual

/-- the names that lead to the files of a tree, file by file -/
def leaves : FileTree → List (List String)
  | node folders files => leavesOf folders ++ files.map ([·])

/-- the names that lead to the files of some folders -/
def leavesOf : List (String × FileTree) → List (List String)
  | [] => []
  | (name, t) :: rest => (leaves t).map (name :: ·) ++ leavesOf rest

end

theorem leavesOf_eq_flatMap (folders : List (String × FileTree)) :
    leavesOf folders = folders.flatMap fun x => x.2.leaves.map (x.1 :: ·) := by
  induction folders with
  | nil => rfl
  | cons x folders ih => rw [leavesOf, ih, List.flatMap_cons]

theorem mem_leaves_node {folders : List (String × FileTree)} {files : List String} :
    parts ∈ (node folders files).leaves ↔
      (∃ x ∈ folders, ∃ rest ∈ x.2.leaves, x.1 :: rest = parts) ∨ ∃ file ∈ files, [file] = parts := by
  rw [leaves, leavesOf_eq_flatMap, List.mem_append, List.mem_flatMap, List.mem_map]
  simp only [List.mem_map]

/-! ## What a path says at a node -/

/-- the folder that a path names first, if more names follow -/
def folder? : List String → Option String
  | name :: _ :: _ => some name
  | _ => none

/-- the file that a path names, if this is all it names -/
def file? : List String → Option String
  | [name] => some name
  | _ => none

/-- what is left of a path behind some folders; nothing if it does not lead through them -/
def behind : List String → List String → List String
  | [], parts => parts
  | _ :: _, [] => []
  | name :: loc, p :: parts => if p = name then behind loc parts else []

theorem behind_cons (name : String) (loc parts : List String) :
    behind (name :: loc) parts = behind loc (behind [name] parts) := by
  have hnil : behind loc [] = [] := by cases loc <;> rfl
  cases parts with
  | nil => simp only [behind, hnil]
  | cons p parts =>
    simp only [behind]
    split_ifs with h
    · rfl
    · exact hnil.symm

theorem mem_of_mem_behind (h : name ∈ behind loc parts) : name ∈ parts := by
  fun_induction behind loc parts with
  | case1 parts => exact h
  | case2 => cases h
  | case3 loc p parts ih => exact List.mem_cons_of_mem _ (ih h)
  | case4 => cases h

theorem folder?_eq_some : folder? parts = some name ↔ ∃ next rest, parts = name :: next :: rest := by
  unfold folder?
  split
  · simp
  · rename_i hnot
    simp only [reduceCtorEq, false_iff, not_exists]
    intro next rest heq
    exact hnot name next rest heq

theorem file?_eq_some : file? parts = some name ↔ parts = [name] := by
  unfold file?
  split
  · simp
  · rename_i hnot
    simp only [reduceCtorEq, false_iff]
    exact hnot name

theorem behind_eq_cons {m next : String} {rest : List String} :
    behind [m] parts = next :: rest ↔ parts = m :: next :: rest := by
  cases parts with
  | nil => simp [behind]
  | cons p parts =>
    by_cases h : p = m <;> simp [behind, h]

/-! ## Grown trees -/

/-- what a list of paths makes of an empty tree -/
inductive Grown : List (List String) → FileTree → Prop
  | node {paths : List (List String)} {folders : List (String × FileTree)} {files : List String}
      (folderNames : folders.map Prod.fst = keepFirst id (paths.filterMap folder?))
      (fileNames : files = keepFirst id (paths.filterMap file?))
      (below : ∀ x ∈ folders, Grown (paths.map (behind [x.1])) x.2) : Grown paths (node folders files)

namespace Grown

theorem folderNames (h : Grown paths t) : t.folders.map Prod.fst = keepFirst id (paths.filterMap folder?) := by
  cases h with
  | node hfolders _ _ => exact hfolders

theorem fileNames (h : Grown paths t) : t.files = keepFirst id (paths.filterMap file?) := by
  cases h with
  | node _ hfiles _ => exact hfiles

theorem folder (h : Grown paths t) {x : String × FileTree} (hx : x ∈ t.folders) :
    Grown (paths.map (behind [x.1])) x.2 := by
  cases h with
  | node _ _ hbelow => exact hbelow x hx

theorem folders_nodup (h : Grown paths t) : (t.folders.map Prod.fst).Nodup := by
  rw [h.folderNames]
  exact keepFirst_pairwise id _

theorem files_nodup (h : Grown paths t) : t.files.Nodup := by
  rw [h.fileNames]
  exact keepFirst_pairwise id _

theorem mem_folders (h : Grown paths t) :
    (∃ child, (name, child) ∈ t.folders) ↔ ∃ next rest, name :: next :: rest ∈ paths := by
  have hnamed : (∃ child, (name, child) ∈ t.folders) ↔ name ∈ t.folders.map Prod.fst := by simp
  rw [hnamed, h.folderNames, mem_keepFirst_id, List.mem_filterMap]
  simp only [folder?_eq_some]
  constructor
  · rintro ⟨parts, hparts, next, rest, rfl⟩
    exact ⟨next, rest, hparts⟩
  · rintro ⟨next, rest, hparts⟩
    exact ⟨_, hparts, next, rest, rfl⟩

theorem mem_files (h : Grown paths t) : name ∈ t.files ↔ [name] ∈ paths := by
  rw [h.fileNames, mem_keepFirst_id, List.mem_filterMap]
  simp only [file?_eq_some, exists_eq_right]

/-- paths that name nothing grow nothing -/
theorem of_forall_nil (h : ∀ parts ∈ paths, parts = []) : Grown paths empty := by
  have hnone : ∀ {f : List String → Option String}, f [] = none → paths.filterMap f = [] := by
    intro f hf
    rw [List.filterMap_eq_nil_iff]
    intro parts hparts
    rw [h parts hparts, hf]
  refine node ?_ ?_ ?_
  · rw [hnone rfl]; rfl
  · rw [hnone rfl]; rfl
  · intro x hx
    cases hx

/-- a folder that is not there yet has nothing to hold -/
theorem of_new_folder (h : Grown paths t) (hnew : ∀ child, (name, child) ∉ t.folders) :
    Grown (paths.map (behind [name])) empty := by
  refine of_forall_nil fun left hleft => ?_
  obtain ⟨parts, hparts, rfl⟩ := List.mem_map.1 hleft
  cases hbehind : behind [name] parts with
  | nil => rfl
  | cons next rest =>
    obtain ⟨child, hchild⟩ := h.mem_folders.2 ⟨next, rest, behind_eq_cons.1 hbehind ▸ hparts⟩
    exact absurd hchild (hnew child)

end Grown

/-! ## One more path -/

/-- a path that names nothing here adds no name -/
theorem firsts_concat_none {f : List String → Option String} (hf : f parts = none) :
    keepFirst id ((paths ++ [parts]).filterMap f) = keepFirst id (paths.filterMap f) := by
  rw [List.filterMap_append, List.filterMap_cons_none hf, List.filterMap_nil, List.append_nil]

/-- a path that names something here adds it at the end, unless it is there -/
theorem firsts_concat_some {f : List String → Option String} (hf : f parts = some name) {names : List String}
    (hnames : names = keepFirst id (paths.filterMap f)) :
    (if names.contains name then names else names ++ [name]) = keepFirst id ((paths ++ [parts]).filterMap f) := by
  rw [List.filterMap_append, List.filterMap_cons_some hf, List.filterMap_nil, keepFirst_concat, hnames]

theorem map_fst_alterFolder (name : String) (f : FileTree → FileTree) (folders : List (String × FileTree)) :
    (alterFolder name f folders).map Prod.fst =
      if (folders.map Prod.fst).contains name then folders.map Prod.fst else folders.map Prod.fst ++ [name] := by
  induction folders with
  | nil => rfl
  | cons x folders ih =>
    obtain ⟨m, child⟩ := x
    by_cases hm : m = name
    · simp [alterFolder, hm]
    · have hhead : (name == m) = false := beq_eq_false_iff_ne.2 (Ne.symm hm)
      rw [alterFolder, if_neg (by simpa using hm), List.map_cons, ih, List.map_cons, List.contains_cons, hhead,
        Bool.false_or]
      split <;> rfl

/-- a folder of the changed list: another one as it was, the changed one, or a new one -/
theorem of_mem_alterFolder {f : FileTree → FileTree} {folders : List (String × FileTree)} {x : String × FileTree}
    (hnodup : (folders.map Prod.fst).Nodup) (hx : x ∈ alterFolder name f folders) :
    (x ∈ folders ∧ x.1 ≠ name) ∨ (∃ child, (name, child) ∈ folders ∧ x = (name, f child)) ∨
      ((∀ child, (name, child) ∉ folders) ∧ x = (name, f empty)) := by
  induction folders with
  | nil => exact Or.inr (Or.inr ⟨fun _ => List.not_mem_nil, List.mem_singleton.1 hx⟩)
  | cons y folders ih =>
    obtain ⟨m, child⟩ := y
    obtain ⟨hfresh, hnodup⟩ := List.nodup_cons.1 hnodup
    by_cases hm : m = name
    · subst hm
      simp only [alterFolder, beq_self_eq_true, if_true] at hx
      rcases List.mem_cons.1 hx with rfl | hx
      · exact Or.inr (Or.inl ⟨child, List.mem_cons_self, rfl⟩)
      · have hthere : x.1 ∈ folders.map Prod.fst := List.mem_map_of_mem hx
        exact Or.inl ⟨List.mem_cons_of_mem _ hx, fun heq => hfresh (heq ▸ hthere)⟩
    · rw [alterFolder, if_neg (by simpa using hm)] at hx
      rcases List.mem_cons.1 hx with rfl | hx
      · exact Or.inl ⟨List.mem_cons_self, hm⟩
      · rcases ih hnodup hx with ⟨hmem, hne⟩ | ⟨child', hmem, heq⟩ | ⟨hnone, heq⟩
        · exact Or.inl ⟨List.mem_cons_of_mem _ hmem, hne⟩
        · exact Or.inr (Or.inl ⟨child', List.mem_cons_of_mem _ hmem, heq⟩)
        · refine Or.inr (Or.inr ⟨fun child' hmem => ?_, heq⟩)
          rcases List.mem_cons.1 hmem with hhead | hmem
          · exact hm (congrArg Prod.fst hhead).symm
          · exact hnone child' hmem

namespace Grown

/-- a path that does not lead here changes nothing -/
theorem concat_nil (h : Grown paths t) : Grown (paths ++ [[]]) t := by
  induction h with
  | node hfolders hfiles _ ih =>
    refine node (hfolders.trans (firsts_concat_none rfl).symm) (hfiles.trans (firsts_concat_none rfl).symm) ?_
    intro x hx
    rw [List.map_append]
    exact ih x hx

/-- a path that ends here -/
theorem insertFile (h : Grown paths t) (name : String) : Grown (paths ++ [[name]]) (insertParts [name] t) := by
  obtain ⟨folders, files⟩ := t
  refine node (h.folderNames.trans (firsts_concat_none rfl).symm) (firsts_concat_some rfl h.fileNames) fun x hx => ?_
  -- nothing is left of the path below any folder
  have hleft : behind [x.1] [name] = [] := by simp [behind]
  rw [List.map_append, List.map_singleton, hleft]
  exact (h.folder hx).concat_nil

/-- **One more path.** -/
theorem insertParts (h : Grown paths t) (parts : List String) : Grown (paths ++ [parts]) (insertParts parts t) := by
  induction parts generalizing paths t with
  | nil => exact h.concat_nil
  | cons name rest ih =>
    cases rest with
    | nil => exact h.insertFile name
    | cons next rest =>
      obtain ⟨folders, files⟩ := t
      refine node ?_ (h.fileNames.trans (firsts_concat_none rfl).symm) fun x hx => ?_
      · rw [map_fst_alterFolder]
        exact firsts_concat_some rfl h.folderNames
      · rw [List.map_append, List.map_singleton]
        rcases of_mem_alterFolder h.folders_nodup hx with ⟨hmem, hne⟩ | ⟨child, hmem, rfl⟩ | ⟨hnew, rfl⟩
        · have hleft : behind [x.1] (name :: next :: rest) = [] := by simp [behind, hne.symm]
          rw [hleft]
          exact (h.folder hmem).concat_nil
        · rw [behind_eq_cons.2 rfl]
          exact ih (h.folder hmem)
        · rw [behind_eq_cons.2 rfl]
          exact ih (h.of_new_folder hnew)

end Grown

/-! ## The tree of some rows -/

/-- what stands between the slashes of a path, empty names included -/
def pieces (path : String) : List String := (path.toList.splitOn '/').map String.ofList

/-- the names in a path -/
def namesIn (path : String) : List String := (pieces path).filter (· ≠ "")

theorem pathParts_eq_namesIn (path : String) : pathParts path = namesIn path := by
  rw [pathParts, segments, namesIn, pieces, List.filter_map]
  refine congrArg (List.map String.ofList) (List.filter_congr fun p _ => ?_)
  cases p <;> simp

theorem insert_eq_insertParts (t : FileTree) (path : String) : t.insert path = insertParts (namesIn path) t := by
  rw [insert, pathParts_eq_namesIn]

theorem Grown.foldl_insert (h : Grown paths t) (rows : List SizeRow) :
    Grown (paths ++ rows.map fun r => namesIn r.path) (rows.foldl (fun t r => t.insert r.path) t) := by
  induction rows generalizing paths t with
  | nil => simpa using h
  | cons r rows ih =>
    rw [List.map_cons, List.append_cons, List.foldl_cons, insert_eq_insertParts]
    exact ih (h.insertParts (namesIn r.path))

/-- **The tree of some rows is grown from their paths.** -/
theorem grown_ofRows (rows : List SizeRow) : Grown (rows.map fun r => namesIn r.path) (ofRows rows) :=
  (Grown.of_forall_nil (by simp) : Grown [] empty).foldl_insert rows

/-! ## Files of a grown tree -/

namespace Grown

/-- the files of a tree are the paths it is grown from -/
theorem mem_leaves (h : Grown paths t) : parts ∈ t.leaves ↔ parts ∈ paths ∧ parts ≠ [] := by
  induction h generalizing parts with
  | @node paths folders files hfolders hfiles hbelow ih =>
    have hgrown : Grown paths (FileTree.node folders files) := node hfolders hfiles hbelow
    rw [mem_leaves_node]
    constructor
    · rintro (⟨x, hx, rest, hrest, rfl⟩ | ⟨file, hfile, rfl⟩)
      · obtain ⟨hmem, hne⟩ := (ih x hx).1 hrest
        obtain ⟨q, hq, hbehind⟩ := List.mem_map.1 hmem
        obtain ⟨next, rest, rfl⟩ := List.exists_cons_of_ne_nil hne
        exact ⟨behind_eq_cons.1 hbehind ▸ hq, List.cons_ne_nil _ _⟩
      · exact ⟨hgrown.mem_files.1 hfile, List.cons_ne_nil _ _⟩
    · rintro ⟨hmem, hne⟩
      match parts, hne with
      | [file], _ => exact Or.inr ⟨file, hgrown.mem_files.2 hmem, rfl⟩
      | name :: next :: rest, _ =>
        obtain ⟨child, hchild⟩ := hgrown.mem_folders.2 ⟨next, rest, hmem⟩
        refine Or.inl ⟨(name, child), hchild, next :: rest, (ih _ hchild).2 ⟨?_, List.cons_ne_nil _ _⟩, rfl⟩
        exact List.mem_map.2 ⟨_, hmem, behind_eq_cons.2 rfl⟩

theorem leaves_nodup (h : Grown paths t) : t.leaves.Nodup := by
  induction h with
  | @node paths folders files hfolders hfiles hbelow ih =>
    have hgrown : Grown paths (FileTree.node folders files) := node hfolders hfiles hbelow
    rw [leaves, leavesOf_eq_flatMap, List.nodup_append']
    refine ⟨List.nodup_flatMap.2 ⟨fun x hx => ?_, ?_⟩, ?_, ?_⟩
    · exact (ih x hx).map (List.cons_injective)
    · -- files of different folders differ in their first names
      refine (List.pairwise_map.1 hgrown.folders_nodup).imp ?_
      intro x y hne parts hx hy
      obtain ⟨p, -, rfl⟩ := List.mem_map.1 hx
      obtain ⟨q, -, hq⟩ := List.mem_map.1 hy
      exact hne (List.cons.inj hq).1.symm
    · exact hgrown.files_nodup.map (List.singleton_injective)
    · -- a file in a folder has more than one name
      intro parts hin hfile
      obtain ⟨x, hx, hin⟩ := List.mem_flatMap.1 hin
      obtain ⟨rest, hrest, rfl⟩ := List.mem_map.1 hin
      obtain ⟨file, -, heq⟩ := List.mem_map.1 hfile
      exact ((hbelow x hx).mem_leaves.1 hrest).2 (List.cons.inj heq).2.symm

/-- a folder is there because a path leads to a file in it -/
theorem folder_inhabited (h : Grown paths t) {x : String × FileTree} (hx : x ∈ t.folders) : x.2.leaves ≠ [] := by
  obtain ⟨next, rest, hmem⟩ := h.mem_folders.1 ⟨x.2, hx⟩
  have hleaf : next :: rest ∈ x.2.leaves := by
    rw [(h.folder hx).mem_leaves]
    exact ⟨List.mem_map.2 ⟨_, hmem, behind_eq_cons.2 rfl⟩, List.cons_ne_nil _ _⟩
  exact List.ne_nil_of_mem hleaf

/-- a node is grown from what is left of the paths behind its folders -/
theorem of_isNode (h : Grown paths t) (hn : IsNode t loc n) : Grown (paths.map (behind loc)) n := by
  induction hn generalizing paths with
  | root t => simpa only [behind, List.map_id'] using h
  | under folder _ ih =>
    have hbelow := ih (h.folder folder)
    rw [List.map_map] at hbelow
    refine (List.map_congr_left fun parts _ => ?_) ▸ hbelow
    exact (behind_cons _ _ _).symm

/-- all names in a tree come from its paths -/
theorem forall_names (h : Grown paths t) {P : String → Prop} (hP : ∀ parts ∈ paths, ∀ name ∈ parts, P name)
    (hn : IsNode t loc n) : ∀ name ∈ n.folders.map Prod.fst ++ n.files, P name := by
  have hnode := h.of_isNode hn
  have hleft : ∀ parts ∈ paths.map (behind loc), ∀ name ∈ parts, P name := by
    intro parts hparts name hname
    obtain ⟨p, hp, rfl⟩ := List.mem_map.1 hparts
    exact hP p hp name (mem_of_mem_behind hname)
  intro name hname
  rcases List.mem_append.1 hname with hname | hname
  · obtain ⟨x, hx, rfl⟩ := List.mem_map.1 hname
    obtain ⟨next, rest, hmem⟩ := hnode.mem_folders.1 ⟨x.2, hx⟩
    exact hleft _ hmem _ List.mem_cons_self
  · exact hleft _ (hnode.mem_files.1 hname) _ List.mem_cons_self

end Grown

/-! ## Names and paths -/

/-- a name that can stand between slashes -/
def IsSegment (name : String) : Prop := name ≠ "" ∧ '/' ∉ name.toList

theorem isSegment_of_mem_namesIn {path : String} (h : name ∈ namesIn path) : IsSegment name := by
  rw [← pathParts_eq_namesIn] at h
  obtain ⟨p, hp, rfl⟩ := List.mem_map.1 h
  obtain ⟨hne, hinside⟩ := of_mem_segments hp
  refine ⟨fun heq => hne (String.ofList_eq_empty_iff.1 heq), fun hslash => ?_⟩
  rw [String.toList_ofList] at hslash
  exact absurd (hinside '/' hslash) (by decide)

/-- segments put together with slashes can be taken apart again -/
theorem splitOn_intercalate {parts : List String} (h : ∀ name ∈ parts, IsSegment name) (hne : parts ≠ []) :
    ("/".intercalate parts).toList.splitOn '/' = parts.map String.toList := by
  rw [String.toList_intercalate]
  refine List.splitOn_intercalate '/' ?_ (by simpa using hne)
  intro l hl
  obtain ⟨name, hname, rfl⟩ := List.mem_map.1 hl
  exact (h name hname).2

theorem intercalate_injective {parts parts' : List String} (h : ∀ name ∈ parts, IsSegment name)
    (h' : ∀ name ∈ parts', IsSegment name) (hne : parts ≠ []) (hne' : parts' ≠ [])
    (heq : "/".intercalate parts = "/".intercalate parts') : parts = parts' := by
  have hlists : parts.map String.toList = parts'.map String.toList := by
    rw [← splitOn_intercalate h hne, heq, splitOn_intercalate h' hne']
  exact List.map_injective_iff.2 (fun a b hab => String.toList_inj.1 hab) hlists

/-- what the node that some folders lead to holds -/
structure NodeHolds (rows : List SizeRow) (loc : List String) (n : FileTree) : Prop where
  folders_nodup : (n.folders.map Prod.fst).Nodup
  files_nodup : n.files.Nodup
  names : ∀ name ∈ n.folders.map Prod.fst ++ n.files, IsSegment name
  inhabited : ∀ x ∈ n.folders, x.2.leaves ≠ []
  /-- the folders that rows name behind these, in the order in which they are first named -/
  folders_order : n.folders.map Prod.fst =
    keepFirst id (rows.filterMap fun r => folder? (behind loc (namesIn r.path)))
  files_order : n.files = keepFirst id (rows.filterMap fun r => file? (behind loc (namesIn r.path)))

theorem nodeHolds_ofRows {rows : List SizeRow} (hn : IsNode (ofRows rows) loc n) : NodeHolds rows loc n := by
  have h := (grown_ofRows rows).of_isNode hn
  have hnames : ∀ parts ∈ rows.map (fun r => namesIn r.path), ∀ name ∈ parts, IsSegment name := by
    intro parts hparts name hname
    obtain ⟨r, -, rfl⟩ := List.mem_map.1 hparts
    exact isSegment_of_mem_namesIn hname
  refine ⟨h.folders_nodup, h.files_nodup, (grown_ofRows rows).forall_names hnames hn,
    fun x hx => h.folder_inhabited hx, ?_, ?_⟩
  · rw [h.folderNames, List.map_map, List.filterMap_map]
    rfl
  · rw [h.fileNames, List.map_map, List.filterMap_map]
    rfl

/-- **The folder tree loses and duplicates nothing.** At each node of the tree of some rows, names are segments, folders
and files are pairwise distinct and stand in the order in which the rows first name them, and no folder is empty. The
files, with the folders that lead to them, are the paths of the rows, each once. -/
theorem tree_faithful (rows : List SizeRow) :
    (∀ loc n, IsNode (ofRows rows) loc n → NodeHolds rows loc n) ∧
      ((ofRows rows).leaves.map ("/".intercalate ·)).Nodup ∧
      ∀ path, path ∈ (ofRows rows).leaves.map ("/".intercalate ·) ↔
        ∃ r ∈ rows, namesIn r.path ≠ [] ∧ path = "/".intercalate (namesIn r.path) := by
  have h := grown_ofRows rows
  have hleaf : ∀ parts, parts ∈ (ofRows rows).leaves ↔ (∃ r ∈ rows, namesIn r.path = parts) ∧ parts ≠ [] := by
    intro parts
    rw [h.mem_leaves, List.mem_map]
  refine ⟨fun loc n hn => nodeHolds_ofRows hn, h.leaves_nodup.map_on ?_, fun path => ?_⟩
  · intro parts hparts parts' hparts' heq
    obtain ⟨⟨r, -, rfl⟩, hne⟩ := (hleaf parts).1 hparts
    obtain ⟨⟨r', -, rfl⟩, hne'⟩ := (hleaf parts').1 hparts'
    exact intercalate_injective (fun _ => isSegment_of_mem_namesIn) (fun _ => isSegment_of_mem_namesIn) hne hne' heq
  · simp only [List.mem_map, hleaf]
    constructor
    · rintro ⟨parts, ⟨⟨r, hr, rfl⟩, hne⟩, rfl⟩
      exact ⟨r, hr, hne, rfl⟩
    · rintro ⟨r, hr, hne, rfl⟩
      exact ⟨_, ⟨⟨r, hr, rfl⟩, hne⟩, rfl⟩

-- a path given twice, a path that names nothing, and a name that is a folder and a file
example : (ofRows [⟨"src//a/A.java", 1, 0⟩, ⟨"/", 0, 0⟩, ⟨"src/a", 2, 1⟩, ⟨"src/a/A.java", 1, 0⟩]).leaves =
    [["src", "a", "A.java"], ["src", "a"]] := by decide +kernel

end ClassAtlas.Report.FileTree
