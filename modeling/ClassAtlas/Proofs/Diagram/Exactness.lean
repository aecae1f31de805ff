/-
The text of a diagram, exactly.

`diagram_exact`: for every list of classes, names shared or not, the graph is built and its diagram is the start mark, one
declaration for each name, one edge for each related pair, and the end mark. Declarations stand in the order in which the
names first occur, and the first class of a name decides its keyword. Edges are of the strongest kind over all classes of
the source's name, and stand in the order of kind, first holder and target.
-/
import ClassAtlas.Proofs.Diagram.Edges
import ClassAtlas.Proofs.Graph.Restriction

namespace ClassAtlas.Graph

open ClassAtlas.Source ClassAtlas.Collect

/-- the line that declares a name of the list: the first class of the name decides the keyword, and an interface is never
declared as an abstract class -/
def firstDeclaration (l : List ClassInfo) (n : String) : String :=
  match l.find? fun c => c.name == n with
  | none => n
  | some c => (if c.isInterface then "interface " else if c.isAbstract then "abstract class " else "class ") ++ n

theorem Settled.declarationLine {l : List ClassInfo} {c d : ClassInfo} (h : Settled l c d) :
    declarationLine d = firstDeclaration l d.name := by
  obtain ⟨first, hfirst, hinterface, habstract⟩ := h.flags
  rw [Graph.declarationLine, firstDeclaration, h.name, hfirst, hinterface, habstract]

/-- the declarations of classes of a graph are those of their names -/
theorem map_declarationLine {l ds : List ClassInfo} (h : ∀ d ∈ ds, d ∈ (assemble l).classes) :
    ds.map declarationLine = (ds.map (·.name)).map (firstDeclaration l) := by
  rw [List.map_map]
  refine List.map_congr_left fun d hd => ?_
  obtain ⟨c, -, hs⟩ := exists_settled (h d hd)
  exact hs.declarationLine

namespace ClassGraph

theorem declared_names_eq (g : ClassGraph) :
    g.declared.map (·.name) = keepFirst (fun n => n) (g.classes.map (·.name)) := by
  rw [keepFirst_map]
  rfl

theorem mem_classes_of_mem_declared {g : ClassGraph} {d : ClassInfo} (h : d ∈ g.declared) : d ∈ g.classes :=
  (keepFirst_sublist _ _).subset h

theorem declared_names_nodup (g : ClassGraph) : (g.declared.map (·.name)).Nodup := by
  rw [List.nodup_iff_pairwise_ne, List.pairwise_map]
  exact keepFirst_pairwise _ _

theorem mem_declared_names {g : ClassGraph} {n : String} :
    n ∈ g.declared.map (·.name) ↔ n ∈ g.classes.map (·.name) := by
  constructor
  · exact fun h => ((keepFirst_sublist _ _).map _).subset h
  · intro h
    obtain ⟨c, hc, rfl⟩ := List.mem_map.1 h
    obtain ⟨d, hd, hname⟩ := exists_mem_keepFirst (fun c : ClassInfo => c.name) hc
    exact List.mem_map.2 ⟨d, hd, hname⟩

end ClassGraph

theorem mem_declared_names_assemble {l : List ClassInfo} {n : String} :
    n ∈ (assemble l).declared.map (·.name) ↔ n ∈ nameSet l := by
  rw [ClassGraph.mem_declared_names, names_classes, List.mem_map, mem_nameSet]

/-- every line of a diagram is closed, and only the end mark is not -/
theorem text_ofGraph (g : ClassGraph) :
    (Diagram.ofGraph g).text = "@startuml\n" ++ String.join (g.declared.map fun c => declarationLine c ++ "\n") ++
      String.join (g.edges.map fun e => e.line ++ "\n") ++ "@enduml" := by
  simp only [Diagram.ofGraph, Diagram.ofLines, List.map_append, List.map_map, String.join_append, Function.comp_def]
  rw [← String.append_assoc]
  rfl

/-- **Exactness of the diagram.** Building succeeds; the text is made of the two marks, one line for each name and one for
each edge; and (a) to (c) say which lines these are and in which order. -/
theorem diagram_exact (l : List ClassInfo) :
    ∃ g, build l = .ok g ∧ List.Forall₂ (Settled l) l g.classes ∧ ∃ (names : List String) (edges : List Edge),
      (Diagram.ofGraph g).text = "@startuml\n" ++ String.join (names.map fun n => firstDeclaration l n ++ "\n") ++
        String.join (edges.map fun e => e.source ++ " " ++ e.kind.arrow ++ " " ++ e.target ++ "\n") ++ "@enduml" ∧
      -- (a) each name once, in the order of first occurrence
      (names.Nodup ∧ (∀ n, n ∈ names ↔ ∃ c ∈ l, c.name = n) ∧
        names.Pairwise fun m n => (l.map (·.name)).idxOf m < (l.map (·.name)).idxOf n) ∧
      -- (b) one edge for each related pair, of the strongest kind over all classes of the source's name
      ((∀ s t, (∃ e ∈ edges, e.source = s ∧ e.target = t) ↔ s ≠ t ∧ ∃ k, g.Relates k s t) ∧
        (edges.map fun e => (e.source, e.target)).Nodup ∧ ∀ e ∈ edges, g.Strongest e.kind e.source e.target) ∧
      -- (c) by kind, first holder and target
      edges.Pairwise g.DrawnBefore := by
  refine ⟨assemble l, build_eq_ok l, classes_settled l, (assemble l).declared.map (·.name), (assemble l).edges, ?_,
    ⟨(assemble l).declared_names_nodup, ?_, ?_⟩,
    ⟨(assemble l).exists_edge_iff, (assemble l).edges_nodup, fun e he => (ClassGraph.mem_edges.1 he).2⟩,
    (assemble l).edges_pairwise⟩
  · rw [text_ofGraph, List.map_map]
    have hlines : (assemble l).declared.map (fun c => declarationLine c ++ "\n") =
        (assemble l).declared.map fun c => firstDeclaration l c.name ++ "\n" := by
      refine List.map_congr_left fun d hd => ?_
      obtain ⟨c, -, hs⟩ := exists_settled ((keepFirst_sublist _ _).subset hd)
      rw [hs.declarationLine]
    rw [hlines]
    rfl
  · intro n
    rw [ClassGraph.mem_declared_names, names_classes, List.mem_map]
  · rw [ClassGraph.declared_names_eq, names_classes]
    exact keepFirst_pairwise_idxOf _

end ClassAtlas.Graph
