/-
A folder tree can be read back from its text.

The text shows the tree by indentation, by the order of its lines and by the slash after a folder's name: the whole tree
of a folder comes before the next folder, and files come last. It is read from the last line to the first. Of the lines
behind a place it is enough to know, for each depth, the tree they make up there; a line is put before that tree, and
the line of a folder takes in all that stands one level deeper.

- `readLine`: one line put before those behind it; `ofText`: the tree of a text.
- `read_render`: where a block ends. Before lines that leave nothing open at a depth or below it, the lines of a tree
  put this tree at the depth and change nothing else.
- `rendering_determines`: reading undoes rendering, so trees with the same text are equal.
-/
import Mathlib.Logic.Function.Basic
import ClassAtlas.Proofs.Report.FolderTree

namespace ClassAtlas.Report.FileTree

open ClassAtlas.Source ClassAtlas.Text

variable {t u : FileTree} {name : String} {depth : Nat} {later : Nat → FileTree}

/-! ## Reading -/

/-- puts a line before the trees that the lines behind it make up, depth by depth -/
def readLine (line : List Char) (later : Nat → FileTree) : Nat → FileTree :=
  let depth := (line.takeWhile (· == ' ')).length / 2
  let label := line.dropWhile (· == ' ')
  match later depth with
  | node folders files =>
    if label.getLast? = some '/' then
      let opened := node ((String.ofList label.dropLast, later (depth + 1)) :: folders) files
      Function.update (Function.update later depth opened) (depth + 1) empty
    else Function.update later depth (node folders (String.ofList label :: files))

/-- the trees that the lines of a text make up, depth by depth -/
def read (text : List Char) : Nat → FileTree := (segments (· == '\n') text).foldr readLine fun _ => empty

/-- the tree that a text shows -/
def ofText (text : String) : FileTree := read text.toList 0

theorem read_line {line : List Char} (hne : line ≠ []) (hfeed : '\n' ∉ line) (rest : List Char) :
    read (line ++ '\n' :: rest) = readLine line (read rest) := by
  have hline : segments (· == '\n') line = [line] := by
    refine segments_eq_singleton hne fun c hc => ?_
    simpa using fun heq : c = '\n' => hfeed (heq ▸ hc)
  rw [read, segments_append_cons rfl, hline]
  rfl

/-! ## Names on a line -/

/-- a name that a line shows as it is -/
structure IsPlainName (name : String) : Prop where
  ne : name ≠ ""
  slash : '/' ∉ name.toList
  feed : '\n' ∉ name.toList
  space : name.toList.head? ≠ some ' '

instance (name : String) : Decidable (IsPlainName name) :=
  decidable_of_iff
    (name ≠ "" ∧ '/' ∉ name.toList ∧ '\n' ∉ name.toList ∧ name.toList.head? ≠ some ' ')
    ⟨fun ⟨hne, hslash, hfeed, hspace⟩ => ⟨hne, hslash, hfeed, hspace⟩, fun h => ⟨h.ne, h.slash, h.feed, h.space⟩⟩

/-- all names in a tree are shown as they are -/
def Plain (t : FileTree) : Prop :=
  ∀ loc n, IsNode t loc n → ∀ name ∈ n.folders.map Prod.fst ++ n.files, IsPlainName name

theorem Plain.isPlainName (h : t.Plain) (hname : name ∈ t.folders.map Prod.fst ++ t.files) : IsPlainName name :=
  h [] t (IsNode.root t) name hname

theorem Plain.folder (h : t.Plain) {x : String × FileTree} (hx : x ∈ t.folders) : x.2.Plain :=
  fun loc n hn => h (x.1 :: loc) n (IsNode.under hx hn)

theorem IsPlainName.toList_ne_nil (h : IsPlainName name) : name.toList ≠ [] := by
  simpa using h.ne

/-- the indentation ends where the name begins, whatever follows it -/
theorem IsPlainName.split (h : IsPlainName name) (depth : Nat) (tail : List Char) :
    (List.replicate (2 * depth) ' ' ++ (name.toList ++ tail)).takeWhile (· == ' ') = List.replicate (2 * depth) ' ' ∧
      (List.replicate (2 * depth) ' ' ++ (name.toList ++ tail)).dropWhile (· == ' ') = name.toList ++ tail := by
  have hspaces : ∀ c ∈ List.replicate (2 * depth) ' ', (c == ' ') = true := by
    intro c hc
    simp [List.eq_of_mem_replicate hc]
  obtain ⟨c, r, hname⟩ := List.exists_cons_of_ne_nil h.toList_ne_nil
  have hc : (c == ' ') = false := by simpa [hname] using h.space
  rw [List.takeWhile_append_of_pos hspaces, List.dropWhile_append_of_pos hspaces, hname]
  simp [hc]

theorem readLine_file (h : IsPlainName name) {folders : List (String × FileTree)} {files : List String}
    (hlater : later depth = node folders files) :
    readLine (List.replicate (2 * depth) ' ' ++ name.toList) later =
      Function.update later depth (node folders (name :: files)) := by
  obtain ⟨htake, hdrop⟩ := h.split depth []
  rw [List.append_nil] at htake hdrop
  have hlast : name.toList.getLast? ≠ some '/' := fun heq => h.slash (List.mem_of_getLast? heq)
  simp only [readLine, htake, hdrop, List.length_replicate, Nat.mul_div_cancel_left depth Nat.two_pos, hlater,
    if_neg hlast, String.ofList_toList]

theorem readLine_folder (h : IsPlainName name) {folders : List (String × FileTree)} {files : List String}
    (hlater : later depth = node folders files) :
    readLine (List.replicate (2 * depth) ' ' ++ (name.toList ++ ['/'])) later =
      Function.update (Function.update later depth (node ((name, later (depth + 1)) :: folders) files))
        (depth + 1) empty := by
  obtain ⟨htake, hdrop⟩ := h.split depth ['/']
  simp only [readLine, htake, hdrop, List.length_replicate, Nat.mul_div_cancel_left depth Nat.two_pos, hlater,
    List.getLast?_concat, if_true, List.dropLast_concat, String.ofList_toList]

/-! ## Blocks of lines -/

theorem read_file (h : IsPlainName name) {folders : List (String × FileTree)} {files : List String} {rest : List Char}
    (hrest : read rest depth = node folders files) :
    read ((indent depth ++ name ++ "\n").toList ++ rest) =
      Function.update (read rest) depth (node folders (name :: files)) := by
  have hline : (indent depth ++ name ++ "\n").toList ++ rest =
      (List.replicate (2 * depth) ' ' ++ name.toList) ++ '\n' :: rest := by
    simp [indent, String.toList_append]
  rw [hline, read_line (by simp [h.ne]) (by simp [h.feed]), readLine_file h hrest]

theorem read_files {folders : List (String × FileTree)} {files more : List String} {rest : List Char}
    (hplain : ∀ name ∈ files, IsPlainName name) (hrest : read rest depth = node folders more) :
    read ((String.join (files.map fun f => indent depth ++ f ++ "\n")).toList ++ rest) =
      Function.update (read rest) depth (node folders (files ++ more)) := by
  induction files with
  | nil =>
    rw [List.nil_append, ← hrest, Function.update_eq_self]
    rfl
  | cons name files ih =>
    have hfiles := ih fun f hf => hplain f (List.mem_cons_of_mem name hf)
    have hsame : read ((String.join (files.map fun f => indent depth ++ f ++ "\n")).toList ++ rest) depth =
        node folders (files ++ more) := by
      rw [hfiles, Function.update_self]
    rw [List.map_cons, String.join_cons, String.toList_append, List.append_assoc,
      read_file (hplain name List.mem_cons_self) hsame, hfiles, Function.update_idem, List.cons_append]

theorem read_folder (h : IsPlainName name) {folders : List (String × FileTree)} {files : List String} {rest : List Char}
    (hrest : read rest depth = node folders files) :
    read ((indent depth ++ name ++ "/\n").toList ++ rest) =
      Function.update (Function.update (read rest) depth (node ((name, read rest (depth + 1)) :: folders) files))
        (depth + 1) empty := by
  have hline : (indent depth ++ name ++ "/\n").toList ++ rest =
      (List.replicate (2 * depth) ' ' ++ (name.toList ++ ['/'])) ++ '\n' :: rest := by
    simp [indent, String.toList_append]
  rw [hline, read_line (by simp) (by simp [h.feed]), readLine_folder h hrest]

/-- induction over the folders of a tree -/
theorem induct {P : FileTree → Prop} (step : ∀ folders files, (∀ x ∈ folders, P x.2) → P (node folders files)) :
    ∀ t, P t
  | node folders files => step folders files fun x _ => induct step x.2
decreasing_by
  have hmem := List.sizeOf_lt_of_mem ‹x ∈ folders›
  have hpair : sizeOf x.2 < sizeOf x := by
    obtain ⟨a, b⟩ := x
    simp only [Prod.mk.sizeOf_spec]
    omega
  simp only [node.sizeOf_spec]
  omega

/-- nothing is open at a depth or below it -/
def ClosedFrom (depth : Nat) (later : Nat → FileTree) : Prop := ∀ e, depth ≤ e → later e = empty

theorem read_folders {folders more : List (String × FileTree)} {files : List String} {rest : List Char}
    (hplain : ∀ x ∈ folders, IsPlainName x.1)
    (hblock : ∀ x ∈ folders, ∀ s, ClosedFrom (depth + 1) (read s) →
      read ((renderAt (depth + 1) x.2).toList ++ s) = Function.update (read s) (depth + 1) x.2)
    (hrest : read rest depth = node more files) (hclosed : ClosedFrom (depth + 1) (read rest)) :
    read ((renderFolders depth folders).toList ++ rest) =
      Function.update (read rest) depth (node (folders ++ more) files) := by
  induction folders with
  | nil =>
    rw [List.nil_append, ← hrest, Function.update_eq_self]
    rfl
  | cons x folders ih =>
    obtain ⟨name, child⟩ := x
    have hfolders := ih (fun x hx => hplain x (List.mem_cons_of_mem _ hx))
      fun x hx => hblock x (List.mem_cons_of_mem _ hx)
    have hbelow : ClosedFrom (depth + 1) (read ((renderFolders depth folders).toList ++ rest)) := by
      intro e he
      rw [hfolders, Function.update_of_ne (by omega), hclosed e he]
    have hchild := hblock (name, child) List.mem_cons_self _ hbelow
    have hhere : read ((renderAt (depth + 1) child).toList ++ ((renderFolders depth folders).toList ++ rest)) depth =
        node (folders ++ more) files := by
      rw [hchild, Function.update_of_ne (by omega), hfolders, Function.update_self]
    have htext : (renderFolders depth ((name, child) :: folders)).toList ++ rest =
        (indent depth ++ name ++ "/\n").toList ++
          ((renderAt (depth + 1) child).toList ++ ((renderFolders depth folders).toList ++ rest)) := by
      simp only [renderFolders, String.toList_append, List.append_assoc]
    rw [htext, read_folder (hplain (name, child) List.mem_cons_self) hhere, hchild, Function.update_self, hfolders]
    funext e
    -- what was open one level deeper is taken in by the folder
    by_cases hdeeper : e = depth + 1
    · subst hdeeper
      rw [Function.update_self, Function.update_of_ne (by omega), hclosed _ le_rfl]
    · by_cases hsame : e = depth
      · subst hsame
        rw [Function.update_of_ne hdeeper, Function.update_self, Function.update_self, List.cons_append]
      · simp only [Function.update_of_ne hdeeper, Function.update_of_ne hsame]

/-- **The lines of a tree put it at its depth.** -/
theorem read_render (ht : t.Plain) {rest : List Char} (hrest : ClosedFrom depth (read rest)) :
    read ((renderAt depth t).toList ++ rest) = Function.update (read rest) depth t := by
  induction t using induct generalizing depth rest with
  | step folders files ih =>
    have hnames : ∀ name ∈ folders.map Prod.fst ++ files, IsPlainName name := fun name hname => ht.isPlainName hname
    have hfiles := read_files (fun f hf => hnames f (List.mem_append_right _ hf)) (hrest depth le_rfl)
    have hbelow : ClosedFrom (depth + 1)
        (read ((String.join (files.map fun f => indent depth ++ f ++ "\n")).toList ++ rest)) := by
      intro e he
      rw [hfiles, Function.update_of_ne (by omega), hrest e (by omega)]
    have hhere : read ((String.join (files.map fun f => indent depth ++ f ++ "\n")).toList ++ rest) depth =
        node [] files := by
      rw [hfiles, Function.update_self, List.append_nil]
    rw [renderAt, String.toList_append, List.append_assoc,
      read_folders (fun x hx => hnames x.1 (List.mem_append_left _ (List.mem_map_of_mem hx)))
        (fun x hx s hs => ih x hx (ht.folder hx) hs) hhere hbelow,
      hfiles, Function.update_idem, List.append_nil]

theorem ofText_render (ht : t.Plain) : ofText t.render = t := by
  have hread : read ((renderAt 0 t).toList ++ []) = Function.update (read []) 0 t := read_render ht fun _ _ => rfl
  rw [List.append_nil] at hread
  rw [ofText, render, hread, Function.update_self]

/-- the tree of rows whose names are all shown as they are -/
theorem plain_ofRows {rows : List SizeRow} (h : ∀ r ∈ rows, ∀ name ∈ namesIn r.path, IsPlainName name) :
    (ofRows rows).Plain := by
  have hparts : ∀ parts ∈ rows.map (fun r => namesIn r.path), ∀ name ∈ parts, IsPlainName name := by
    intro parts hparts
    obtain ⟨r, hr, rfl⟩ := List.mem_map.1 hparts
    exact h r hr
  exact fun loc n hn => (grown_ofRows rows).forall_names hparts hn

/-- **The text of a tree determines it.** Trees of any depth whose names are not empty, hold no slash and no line feed
and do not begin with a space are read back from their text, so no two of them have the same. -/
theorem rendering_determines (t u : FileTree) (ht : t.Plain) (hu : u.Plain) :
    ofText t.render = t ∧ (t.render = u.render → t = u) := by
  refine ⟨ofText_render ht, fun heq => ?_⟩
  calc t = ofText t.render := (ofText_render ht).symm
    _ = ofText u.render := by rw [heq]
    _ = u := ofText_render hu

/-- rows whose paths share a folder; one name is a folder and a file -/
def shopRows : List SizeRow :=
  [⟨"Main.java", 4, 0⟩, ⟨"src/a/A.java", 9, 2⟩, ⟨"src/a", 1, 0⟩, ⟨"src/a/old A.java", 3, 1⟩]

/-- other rows with the same tree -/
def shopRowsAgain : List SizeRow :=
  [⟨"src//a/A.java", 9, 2⟩, ⟨"/src/a", 1, 0⟩, ⟨"src/a/old A.java", 3, 1⟩, ⟨"src/a/A.java", 9, 2⟩, ⟨"Main.java", 4, 0⟩]

theorem rendering_determines_shop :
    (ofRows shopRows).Plain ∧ (ofRows shopRowsAgain).Plain ∧
      (ofRows shopRows).render = "src/\n  a/\n    A.java\n    old A.java\n  a\nMain.java\n" ∧
      ofText (ofRows shopRows).render = ofRows shopRows ∧ ofRows shopRows = ofRows shopRowsAgain := by
  have ht : (ofRows shopRows).Plain := plain_ofRows (by decide +kernel)
  have hu : (ofRows shopRowsAgain).Plain := plain_ofRows (by decide +kernel)
  obtain ⟨hread, hsame⟩ := rendering_determines (ofRows shopRows) (ofRows shopRowsAgain) ht hu
  exact ⟨ht, hu, by decide +kernel, hread, hsame (by decide +kernel)⟩

end ClassAtlas.Report.FileTree
