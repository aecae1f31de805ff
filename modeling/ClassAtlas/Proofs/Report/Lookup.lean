/-
Analysed files are found again, with the rows that were computed from them.

The size row of a file is found in one table by its path, exact or by its end; the coupling row in another by the path
of that row. The second table comes out of reading the classes and building their graph. That both rows are about one
file hangs on distinct paths and on the order of the files being kept all the way.

- `Chosen files q i f`: the file that a query names is the `i`-th, `f`.
- `RowsOf`: what the tables hold for a file, and what it was computed from; `rowsOf`: they hold it at the file's place.
- `findFile_of_chosen`: looking up what a query names gives the rows of the file.
- `files_found`: when a look-up finds nothing, what it finds otherwise, and that every file is found by its own path.
-/
import Mathlib.Data.List.Nodup
import ClassAtlas.Collect.KeepFirst
import ClassAtlas.Proofs.Analysis
import ClassAtlas.Proofs.Text.Words
import ClassAtlas.Report.Lookup

namespace ClassAtlas.Report

open ClassAtlas.Collect ClassAtlas.Graph ClassAtlas.Source ClassAtlas.Text

variable {files : List SourceFile} {q : List Char} {i : Nat} {f : SourceFile} {query : String}

/-! ## What a query names -/

/-- a path that a query can stand for: the query itself, or a path that ends in a slash and the query -/
def Fits (q path : List Char) : Prop := path = q ∨ '/' :: q <:+ path

instance (q path : List Char) : Decidable (Fits q path) := inferInstanceAs (Decidable (_ ∨ _))

/-- the file that a query names -/
inductive Chosen (files : List SourceFile) (q : List Char) (i : Nat) (f : SourceFile) : Prop
  | byPath (place : files[i]? = some f) (same : f.path.toList = q)
  /-- no path is the query, and this one is the first that ends in it -/
  | byEnd (place : files[i]? = some f) (noPath : ∀ g ∈ files, g.path.toList ≠ q) (ending : '/' :: q <:+ f.path.toList)
      (first : ∀ j g, j < i → files[j]? = some g → ¬ '/' :: q <:+ g.path.toList)

theorem Chosen.place (h : Chosen files q i f) : files[i]? = some f := by
  cases h with
  | byPath place _ => exact place
  | byEnd place _ _ _ => exact place

theorem exists_chosen (h : ∃ f ∈ files, Fits q f.path.toList) : ∃ i f, Chosen files q i f := by
  by_cases hpath : ∃ g ∈ files, g.path.toList = q
  · obtain ⟨g, hg, hgq⟩ := hpath
    obtain ⟨i, hi⟩ := List.mem_iff_getElem?.1 hg
    exact ⟨i, g, .byPath hi hgq⟩
  · have hnone : ∀ g ∈ files, g.path.toList ≠ q := fun g hg heq => hpath ⟨g, hg, heq⟩
    obtain ⟨f, hf, hfits⟩ := h
    have hends : '/' :: q <:+ f.path.toList := hfits.resolve_left (hnone f hf)
    cases hfind : files.find? (fun g => decide ('/' :: q <:+ g.path.toList)) with
    | none => exact absurd hends (by simpa using List.find?_eq_none.1 hfind f hf)
    | some g =>
      obtain ⟨hg, i, hi, rfl, hfirst⟩ := List.find?_eq_some_iff_getElem.1 hfind
      refine ⟨i, files[i], .byEnd (List.getElem?_eq_getElem hi) hnone (by simpa using hg) fun j g hj hjg => ?_⟩
      obtain ⟨hjlen, rfl⟩ := List.getElem?_eq_some_iff.1 hjg
      simpa using hfirst j hj

/-! ## The size row -/

/-- the search in the size table, said of the files -/
theorem findRow_sizes (files : List SourceFile) (q : List Char) :
    findRow (files.map (·.size)) q =
      ((files.find? fun g => g.path.toList == q).or
        (files.find? fun g => ('/' :: q).isSuffixOf g.path.toList)).map (·.size) := by
  have hfind : ∀ p : List Char → Bool, (files.map (·.size)).find? (fun r => p r.path.toList) =
      (files.find? fun g => p g.path.toList).map (·.size) := by
    intro p
    rw [List.find?_map]
    rfl
  rw [findRow, hfind (· == q), hfind ('/' :: q).isSuffixOf]
  cases files.find? fun g => g.path.toList == q <;> rfl

theorem findRow_of_chosen (hpaths : (files.map (·.path)).Nodup) (h : Chosen files q i f) :
    findRow (files.map (·.size)) q = some f.size := by
  cases h with
  | byPath place same =>
    have hkeys : (files.map fun g => g.path.toList).Nodup := by
      have hmap := List.Nodup.map (fun _ _ heq => String.toList_injective heq) hpaths
      rwa [List.map_map] at hmap
    have hfirst : files.find? (fun g => g.path.toList == q) = some f :=
      same ▸ find?_of_nodup hkeys (List.mem_of_getElem? place)
    rw [findRow_sizes, hfirst]
    rfl
  | byEnd place noPath ending first =>
    have hnone : files.find? (fun g => g.path.toList == q) = none := by
      simpa [List.find?_eq_none] using noPath
    have hfirst : files.find? (fun g => ('/' :: q).isSuffixOf g.path.toList) = some f := by
      obtain ⟨hi, rfl⟩ := List.getElem?_eq_some_iff.1 place
      rw [List.find?_eq_some_iff_getElem]
      refine ⟨List.isSuffixOf_iff_suffix.2 ending, i, hi, rfl, fun j hj => ?_⟩
      rw [Bool.not_eq_true', Bool.eq_false_iff, Ne, List.isSuffixOf_iff_suffix]
      exact first j _ hj (List.getElem?_eq_getElem _)
    rw [findRow_sizes, hnone, hfirst]
    rfl

theorem findRow_eq_none (h : ∀ f ∈ files, ¬ Fits q f.path.toList) : findRow (files.map (·.size)) q = none := by
  have hpath : files.find? (fun g => g.path.toList == q) = none := by
    rw [List.find?_eq_none]
    intro g hg
    simpa using fun heq => h g hg (Or.inl heq)
  have hend : files.find? (fun g => ('/' :: q).isSuffixOf g.path.toList) = none := by
    rw [List.find?_eq_none]
    intro g hg
    rw [List.isSuffixOf_iff_suffix]
    exact fun hends => h g hg (Or.inr hends)
  rw [findRow_sizes, hpath, hend]
  rfl

/-! ## Both rows -/

/-- what the tables of an analysis hold for the `i`-th file, and that it was computed from this file -/
structure RowsOf (files : List SourceFile) (a : Analysis) (i : Nat) (f : SourceFile) (size : SizeRow)
    (coupling : CouplingRow Float) : Prop where
  place : files[i]? = some f
  size_place : a.sizes[i]? = some size
  coupling_place : a.coupling[i]? = some coupling
  size_eq : size = f.size
  /-- the class read from the file, as the graph of all classes holds it, is what the coupling is computed of -/
  coupling_eq : ∃ g c, build (readClasses files) = .ok g ∧ g.classes[i]? = some c ∧
    Settled (readClasses files) f.readClass c ∧ coupling = couplingOf c

/-- the analysis of some files, written out -/
def analysisOf (files : List SourceFile) : Analysis :=
  ⟨files.map (·.size), (assemble (readClasses files)).coupling, Diagram.ofGraph (assemble (readClasses files))⟩

theorem rowsOf (h : files[i]? = some f) :
    RowsOf files (analysisOf files) i f f.size (couplingOf (entry (readClasses files) f.readClass)) := by
  have hclass : (assemble (readClasses files)).classes[i]? = some (entry (readClasses files) f.readClass) := by
    rw [classes_assemble, readClasses, List.getElem?_map, List.getElem?_map, h]
    rfl
  refine ⟨h, ?_, ?_, rfl, _, _, build_eq_ok _, hclass, ?_, rfl⟩
  · rw [analysisOf, List.getElem?_map, h]
    rfl
  · rw [analysisOf, ClassGraph.coupling, List.getElem?_map, hclass]
    rfl
  · exact settled_entry (List.mem_map_of_mem (List.mem_of_getElem? h))

/-- the coupling row of a file is the only one with its path -/
theorem RowsOf.find?_coupling {size : SizeRow} {coupling : CouplingRow Float} (hpaths : (files.map (·.path)).Nodup)
    (h : RowsOf files (analysisOf files) i f size coupling) :
    (analysisOf files).coupling.find? (fun c => c.path == size.path) = some coupling := by
  have hkeys : ((analysisOf files).coupling.map (·.path)).Nodup := by
    rw [analysisOf, coupling_paths, readClasses, List.map_map]
    exact hpaths
  have hsame : coupling.path = size.path := by
    obtain ⟨g, c, -, -, hsettled, hcoupling⟩ := h.coupling_eq
    rw [hcoupling, h.size_eq]
    exact hsettled.path
  rw [← hsame]
  exact find?_of_nodup hkeys (List.mem_of_getElem? h.coupling_place)

theorem findFile_of_chosen (hpaths : (files.map (·.path)).Nodup) (hq : readQuery query ≠ [])
    (h : Chosen files (readQuery query) i f) :
    ∃ size coupling, RowsOf files (analysisOf files) i f size coupling ∧
      findFile (analysisOf files) query = some (size, some coupling) := by
  have hrows := rowsOf h.place
  have hfound : findRow (analysisOf files).sizes (readQuery query) = some f.size := findRow_of_chosen hpaths h
  refine ⟨_, _, hrows, ?_⟩
  rw [findFile, if_neg (by simpa using hq), hfound, Option.map_some, hrows.find?_coupling hpaths]

theorem findFile_eq_none_iff (hpaths : (files.map (·.path)).Nodup) :
    findFile (analysisOf files) query = none ↔
      readQuery query = [] ∨ ∀ f ∈ files, ¬ Fits (readQuery query) f.path.toList := by
  constructor
  · intro hnone
    by_contra hnot
    obtain ⟨hq, hfits⟩ := not_or.1 hnot
    push Not at hfits
    obtain ⟨i, f, hchosen⟩ := exists_chosen hfits
    obtain ⟨_, _, -, hfound⟩ := findFile_of_chosen hpaths hq hchosen
    rw [hnone] at hfound
    cases hfound
  · rintro (hq | hfits)
    · rw [findFile, if_pos (by simpa using hq)]
    · have hrow : findRow (analysisOf files).sizes (readQuery query) = none := findRow_eq_none hfits
      simp only [findFile, hrow, Option.map_none, ite_self]

/-! ## Paths as queries -/

theorem path_ne_nil (f : SourceFile) : f.path.toList ≠ [] := by
  intro hnil
  have hnamed := f.named
  rw [Source.className, hnil] at hnamed
  exact absurd hnamed (by decide)

/-- a path without outer white space, backslashes and slashes in front is a query for itself -/
theorem readQuery_eq_self {path : String} (htrim : Trimmed path.toList) (hback : '\\' ∉ path.toList)
    (hslash : path.toList.head? ≠ some '/') : readQuery path = path.toList := by
  have hswap : swap '\\' '/' path.toList = path.toList := by
    refine (List.map_congr_left fun c hc => ?_).trans (List.map_id _)
    exact if_neg (by simpa using fun heq : c = '\\' => hback (heq ▸ hc))
  rw [readQuery, htrim.trim_eq, hswap]
  cases hpath : path.toList with
  | nil => rfl
  | cons c r =>
    have hc : c ≠ '/' := by simpa [hpath] using hslash
    simp [hc]

/-- what can be found in the analysis of some files -/
structure Finds (files : List SourceFile) (a : Analysis) : Prop where
  none_iff : ∀ query, findFile a query = none ↔
    readQuery query = [] ∨ ∀ f ∈ files, ¬ Fits (readQuery query) f.path.toList
  /-- otherwise the rows of the file that the query names -/
  found : ∀ query, readQuery query ≠ [] → (∃ f ∈ files, Fits (readQuery query) f.path.toList) →
    ∃ i f size coupling, Chosen files (readQuery query) i f ∧ RowsOf files a i f size coupling ∧
      findFile a query = some (size, some coupling)
  byOwnPath : ∀ i f, files[i]? = some f → Trimmed f.path.toList → '\\' ∉ f.path.toList →
    f.path.toList.head? ≠ some '/' →
    ∃ size coupling, RowsOf files a i f size coupling ∧ findFile a f.path = some (size, some coupling)

/-- **Analysed files are found again.** In the analysis of files with distinct paths, a query finds nothing exactly if it
is empty or no path is the query or ends in it. Otherwise it finds the size row of the file it names, together with the
coupling row computed from the same file. A file whose path can be typed as it is, is found by its path. -/
theorem files_found (files : List SourceFile) (hpaths : (files.map (·.path)).Nodup) :
    ∃ a, Analysis.ofFiles files = .ok a ∧ Finds files a := by
  refine ⟨analysisOf files, ofFiles_eq_ok files, fun query => findFile_eq_none_iff hpaths, ?_, ?_⟩
  · intro query hq hfits
    obtain ⟨i, f, hchosen⟩ := exists_chosen hfits
    obtain ⟨size, coupling, hrows, hfound⟩ := findFile_of_chosen hpaths hq hchosen
    exact ⟨i, f, size, coupling, hchosen, hrows, hfound⟩
  · intro i f hplace htrim hback hslash
    have hself := readQuery_eq_self htrim hback hslash
    have hchosen : Chosen files (readQuery f.path) i f := .byPath hplace hself.symm
    exact findFile_of_chosen hpaths (hself ▸ path_ne_nil f) hchosen

/-- two files of one name, and the class they lead to -/
def orderFiles : List SourceFile :=
  [⟨"src/a/Order.java", "class Order \x7b Item item; \x7d", by decide⟩,
    ⟨"src/b/Order.java", "interface Order \x7b\x7d", by decide⟩, ⟨"Item.java", "class Item \x7b\x7d", by decide⟩]

theorem files_found_orders :
    (orderFiles.map (·.path)).Nodup ∧ ∃ a, Analysis.ofFiles orderFiles = .ok a ∧
      (∃ f size coupling, f.path = "src/b/Order.java" ∧ RowsOf orderFiles a 1 f size coupling ∧
        findFile a "src/b/Order.java" = some (size, some coupling)) ∧
      (∃ i f size coupling, Chosen orderFiles "b/Order.java".toList i f ∧ RowsOf orderFiles a i f size coupling ∧
        findFile a " /b\\Order.java " = some (size, some coupling)) ∧
      findFile a "rder.java" = none := by
  have hpaths : (orderFiles.map (·.path)).Nodup := by decide +kernel
  obtain ⟨a, ha, hfinds⟩ := files_found orderFiles hpaths
  have htrim : Trimmed "src/b/Order.java".toList := by
    refine ⟨fun c hc => ?_, fun c hc => ?_⟩
    · obtain rfl : 's' = c := Option.some.inj hc
      decide
    · obtain rfl : 'a' = c := Option.some.inj hc
      decide
  have hquery : readQuery " /b\\Order.java " = "b/Order.java".toList := by decide +kernel
  have hfound := hfinds.found " /b\\Order.java " (by rw [hquery]; decide +kernel)
    ⟨orderFiles[1], List.getElem_mem _, Or.inr (by rw [hquery]; decide +kernel)⟩
  rw [hquery] at hfound
  obtain ⟨size, coupling, hown⟩ := hfinds.byOwnPath 1 orderFiles[1] rfl htrim (by decide +kernel) (by decide +kernel)
  refine ⟨hpaths, a, ha, ⟨_, size, coupling, rfl, hown⟩, hfound, (hfinds.none_iff _).2 (Or.inr ?_)⟩
  decide +kernel

end ClassAtlas.Report
