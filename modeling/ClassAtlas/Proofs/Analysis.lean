/-
The analysis of some files: three datasets about the same files.

- `tryReadClasses_eq_ok`: if no pattern is refused, every file is read.
- `Presents`: what the datasets show of the files; `presents_ofFiles`: the analysis of any files shows it.
-/
import ClassAtlas.Analysis
import ClassAtlas.Proofs.Diagram.Exactness
import ClassAtlas.Proofs.Graph.Relations

namespace ClassAtlas

open ClassAtlas.Source ClassAtlas.Graph

theorem tryReadClasses_eq_ok {refusal : String → Option String} {files : List SourceFile}
    (h : ∀ f ∈ files, refusal f.className = none) : tryReadClasses refusal files = .ok (readClasses files) := by
  induction files with
  | nil => rfl
  | cons f files ih =>
    have hrest := ih fun g hg => h g (List.mem_cons_of_mem f hg)
    simp only [tryReadClasses] at hrest
    rw [tryReadClasses, List.mapM_cons, h f List.mem_cons_self, hrest]
    rfl

/-- sizes and coupling have one row for each file, and the diagram declares each class name once -/
structure Presents (files : List SourceFile) (r : Analysis) : Prop where
  analysis : Analysis.ofFiles files = .ok r
  sizes : r.sizes.map (·.path) = files.map (·.path)
  coupling : r.coupling.map (·.path) = files.map (·.path)
  diagram : ∃ (g : ClassGraph) (names : List String), build (readClasses files) = .ok g ∧
    r.diagram = Diagram.ofLines (names.map (firstDeclaration (readClasses files)) ++ g.edges.map Edge.line) ∧
    names.Nodup ∧ ∀ n, n ∈ names ↔ ∃ f ∈ files, f.className = n

theorem ofFiles_eq_ok (files : List SourceFile) :
    Analysis.ofFiles files =
      .ok ⟨files.map (·.size), (assemble (readClasses files)).coupling,
        Diagram.ofGraph (assemble (readClasses files))⟩ := by
  rw [Analysis.ofFiles, build_eq_ok]
  rfl

theorem coupling_paths (l : List ClassInfo) :
    ((assemble l).coupling : List (CouplingRow Float)).map (·.path) = l.map (·.path) := by
  rw [← paths_classes, ClassGraph.coupling, List.map_map]
  rfl

theorem presents_ofFiles {files : List SourceFile} {r : Analysis} (h : Analysis.ofFiles files = .ok r) :
    Presents files r := by
  have hr := h
  rw [ofFiles_eq_ok] at hr
  cases hr
  refine ⟨h, ?_, ?_, assemble (readClasses files), (assemble (readClasses files)).declared.map (·.name),
    build_eq_ok _, ?_, ClassGraph.declared_names_nodup _, fun n => ?_⟩
  · rw [List.map_map]
    rfl
  · rw [coupling_paths, readClasses, List.map_map]
    rfl
  · rw [Diagram.ofGraph, map_declarationLine fun d hd => ClassGraph.mem_classes_of_mem_declared hd]
  · rw [mem_declared_names_assemble, mem_nameSet]
    simp only [readClasses, List.mem_map, exists_exists_and_eq_and]
    rfl

end ClassAtlas
