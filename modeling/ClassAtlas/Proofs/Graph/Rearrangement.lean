/-
The order of the files does not matter, as long as the first file of each name stays the first of its name.

Order enters a graph in three places: the first class of a name decides its flags, the edges come out of one pass over the
classes, and this pass keeps the first relation of a pair. With several files of one name the file met first might decide
the kind of an edge; that it does not is what `ClassGraph.mem_edges` says.

- `rearrange order l`: the items of `l` in the order of the given positions.
- `entry_rearranged`: a class has the same entry in both graphs.
- `order_independent`: the two graphs, their coupling tables and their diagrams compared.
-/
import Mathlib.Data.List.Nodup
import ClassAtlas.Graph.Coupling
import ClassAtlas.Proofs.Diagram.Exactness
import ClassAtlas.Proofs.Graph.Relations

namespace ClassAtlas.Graph

open ClassAtlas.Source ClassAtlas.Collect

/-! ## Rearranged lists -/

section

variable {α β : Type} {order : List Nat} {l : List α}

/-- the items at the given positions, in their order -/
def rearrange (order : List Nat) (l : List α) : List α := order.filterMap fun i => l[i]?

theorem rearrange_map (f : α → β) (order : List Nat) (l : List α) :
    rearrange order (l.map f) = (rearrange order l).map f := by
  simp only [rearrange, List.map_filterMap, List.getElem?_map]

theorem rearrange_range (l : List α) : rearrange (List.range l.length) l = l := by
  induction l with
  | nil => rfl
  | cons a l ih =>
    rw [rearrange, List.length_cons, List.range_succ_eq_map, List.filterMap_cons, List.filterMap_map]
    exact congrArg (a :: ·) ih

theorem rearrange_perm (h : order.Perm (List.range l.length)) : (rearrange order l).Perm l := by
  have hperm := h.filterMap fun i => l[i]?
  exact hperm.trans (List.Perm.of_eq (rearrange_range l))

end

/-! ## Graphs of rearranged lists -/

section

variable {l l' : List ClassInfo} {c : ClassInfo} {n : String}

theorem nameSet_perm (h : l'.Perm l) : nameSet l' = nameSet l := by
  refine NameSet.ext fun n => ?_
  simp only [mem_nameSet, h.mem_iff]

theorem dependents_perm (h : l'.Perm l) (n : String) : dependents l' n = dependents l n :=
  nameSet_perm (h.filter _)

/-- the classes of both lists have the same first class of their name -/
def SameFirsts (l l' : List ClassInfo) : Prop :=
  ∀ c ∈ l, l'.find? (fun b => b.name == c.name) = l.find? fun b => b.name == c.name

instance (l l' : List ClassInfo) : Decidable (SameFirsts l l') := inferInstanceAs (Decidable (∀ c ∈ l, _))

theorem restricted_rearranged (h : l'.Perm l) (hfirst : SameFirsts l l') (hc : c ∈ l) :
    restricted l' c = restricted l c := by
  rw [restricted, restricted, nameSet_perm h, firstFlags, firstFlags, hfirst c hc]

theorem entry_rearranged (h : l'.Perm l) (hfirst : SameFirsts l l') (hc : c ∈ l) : entry l' c = entry l c := by
  have hmap : l'.map (restricted l') = l'.map (restricted l) :=
    List.map_congr_left fun b hb => restricted_rearranged h hfirst (h.mem_iff.1 hb)
  have hdependents : ∀ n, dependents (l'.map (restricted l')) n = dependents (l.map (restricted l)) n := by
    intro n
    rw [hmap]
    exact dependents_perm (h.map _) n
  rw [entry, entry, restricted_rearranged h hfirst hc, hdependents]

theorem classes_rearranged (h : l'.Perm l) (hfirst : SameFirsts l l') : (assemble l').classes = l'.map (entry l) := by
  rw [classes_assemble]
  exact List.map_congr_left fun c hc => entry_rearranged h hfirst (h.mem_iff.1 hc)

/-! ## Diagrams of rearranged lists -/

theorem relates_perm {g g' : ClassGraph} (h : g'.classes.Perm g.classes) {k : RelationKind} {s t : String} :
    g'.Relates k s t ↔ g.Relates k s t := by
  simp only [ClassGraph.Relates, h.mem_iff]

/-- the same classes in another order give the same edges, kinds included -/
theorem edges_perm {g g' : ClassGraph} (h : g'.classes.Perm g.classes) : g'.edges.Perm g.edges := by
  rw [List.perm_ext_iff_of_nodup g'.edges_nodup.of_map g.edges_nodup.of_map]
  intro e
  simp only [ClassGraph.mem_edges, ClassGraph.Strongest, relates_perm h]

theorem declared_names_perm {g g' : ClassGraph} (h : g'.classes.Perm g.classes) :
    (g'.declared.map (·.name)).Perm (g.declared.map (·.name)) := by
  rw [List.perm_ext_iff_of_nodup g'.declared_names_nodup g.declared_names_nodup]
  intro n
  rw [ClassGraph.mem_declared_names, ClassGraph.mem_declared_names, (h.map _).mem_iff]

theorem declarations_perm (hclasses : (assemble l').classes.Perm (assemble l).classes) (hfirst : SameFirsts l l') :
    ((assemble l').declared.map declarationLine).Perm ((assemble l).declared.map declarationLine) := by
  rw [map_declarationLine fun d hd => ClassGraph.mem_classes_of_mem_declared hd,
    map_declarationLine fun d hd => ClassGraph.mem_classes_of_mem_declared hd]
  have hnames := (declared_names_perm hclasses).map (firstDeclaration l')
  refine hnames.trans (List.Perm.of_eq ?_)
  refine List.map_congr_left fun n hn => ?_
  obtain ⟨c, hc, rfl⟩ := mem_nameSet.1 (mem_declared_names_assemble.1 hn)
  rw [firstDeclaration, firstDeclaration, hfirst c hc]

end

/-- **Independence of the file order.** A permutation of the classes that keeps the first class of each name leads to the
same set of names, to the same classes and the same coupling rows, both permuted in the same way, and to the same
declarations and edges. -/
theorem order_independent (l : List ClassInfo) (order : List Nat) (horder : order.Perm (List.range l.length))
    (hfirst : SameFirsts l (rearrange order l)) :
    ∃ g g', build l = .ok g ∧ build (rearrange order l) = .ok g' ∧ g'.names = g.names ∧
      g'.classes = rearrange order g.classes ∧
      (∀ (α : Type) [Scalar α], (g'.coupling : List (CouplingRow α)) = rearrange order g.coupling) ∧
      (g'.declared.map declarationLine).Perm (g.declared.map declarationLine) ∧ g'.edges.Perm g.edges := by
  have hperm : (rearrange order l).Perm l := rearrange_perm horder
  have hclasses : (assemble (rearrange order l)).classes = rearrange order (assemble l).classes := by
    rw [classes_rearranged hperm hfirst, classes_assemble, rearrange_map]
  have hsame : (assemble (rearrange order l)).classes.Perm (assemble l).classes := by
    rw [hclasses]
    refine rearrange_perm ?_
    rwa [classes_assemble, List.length_map]
  refine ⟨_, _, build_eq_ok _, build_eq_ok _, nameSet_perm hperm, hclasses, fun α _ => ?_,
    declarations_perm hsame hfirst, edges_perm hsame⟩
  rw [ClassGraph.coupling, ClassGraph.coupling, hclasses, rearrange_map]

/-- two files of one name, the weaker relation in the first, and the class they lead to -/
def shapes : List ClassInfo :=
  [{ path := "a/Shape.java", name := "Shape", isInterface := true, dependencies := NameSet.ofList ["Point"] },
    { path := "b/Shape.java", name := "Shape", compositions := NameSet.ofList ["Point"] },
    { path := "Point.java", name := "Point" }]

theorem order_independent_shapes :
    [2, 0, 1].Perm (List.range shapes.length) ∧ SameFirsts shapes (rearrange [2, 0, 1] shapes) ∧
      ∃ g g', build shapes = .ok g ∧ build (rearrange [2, 0, 1] shapes) = .ok g' ∧ g'.names = g.names ∧
        g'.classes = rearrange [2, 0, 1] g.classes ∧
        (∀ (α : Type) [Scalar α], (g'.coupling : List (CouplingRow α)) = rearrange [2, 0, 1] g.coupling) ∧
        (g'.declared.map declarationLine).Perm (g.declared.map declarationLine) ∧ g'.edges.Perm g.edges :=
  ⟨by decide, by decide, order_independent shapes [2, 0, 1] (by decide) (by decide)⟩

end ClassAtlas.Graph
