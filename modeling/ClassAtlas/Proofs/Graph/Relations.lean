/-
Which names a built class graph relates, and what it counts for a class, said of the list it is built from.

- `entry l c`: the class `c` of the list `l` as the graph holds it; `classes_assemble`: the graph holds the entries.
- `relates_assemble_iff`: a built graph relates two names by a kind exactly when they differ, some class of the first has
  the second by that kind, and the second is a name of the list.
- `mem_dependents_classes`, `incoming_entry`: an entry counts the names that the graph relates to its own.
-/
import ClassAtlas.Proofs.Diagram.Edges
import ClassAtlas.Proofs.Graph.Restriction

namespace ClassAtlas.Graph

open ClassAtlas.Source ClassAtlas.Collect

variable {l : List ClassInfo} {c d : ClassInfo} {k : RelationKind} {s t : String}

/-- the class of a list with its flags shared and its relations restricted -/
def restricted (l : List ClassInfo) (c : ClassInfo) : ClassInfo := restrict (nameSet l) (firstFlags l c)

/-- the class of a list as the graph of the list holds it -/
def entry (l : List ClassInfo) (c : ClassInfo) : ClassInfo :=
  { restricted l c with incoming := (dependents (l.map (restricted l)) (restricted l c).name).size }

theorem classes_assemble (l : List ClassInfo) : (assemble l).classes = l.map (entry l) := by
  simp only [assemble, List.map_map]
  rfl

theorem settled_entry (hc : c ∈ l) : Settled l c (entry l c) := settled_of_mem hc _

theorem name_entry (hc : c ∈ l) : (entry l c).name = c.name := (settled_entry hc).name

theorem mem_nameSet_of_mem (hc : c ∈ l) : c.name ∈ nameSet l := mem_nameSet.2 ⟨c, hc, rfl⟩

/-- **What a built graph relates.** -/
theorem relates_assemble_iff :
    (assemble l).Relates k s t ↔ s ≠ t ∧ (∃ c ∈ l, c.name = s ∧ t ∈ targets c k) ∧ t ∈ nameSet l := by
  rw [ClassGraph.Relates, classes_assemble, mem_nameSet]
  constructor
  · rintro ⟨d, hd, rfl, ht⟩
    obtain ⟨c, hc, rfl⟩ := List.mem_map.1 hd
    rw [name_entry hc]
    obtain ⟨hct, hne, hin⟩ := ((settled_entry hc).targets k t).1 ht
    exact ⟨hne.symm, ⟨c, hc, rfl, hct⟩, hin⟩
  · rintro ⟨hne, ⟨c, hc, rfl, hct⟩, hin⟩
    refine ⟨entry l c, List.mem_map_of_mem hc, name_entry hc, ?_⟩
    exact ((settled_entry hc).targets k t).2 ⟨hct, hne.symm, hin⟩

theorem mem_nameSet_of_relates (h : (assemble l).Relates k s t) : s ∈ nameSet l ∧ t ∈ nameSet l := by
  obtain ⟨-, ⟨c, hc, rfl, -⟩, ht⟩ := relates_assemble_iff.1 h
  exact ⟨mem_nameSet_of_mem hc, ht⟩

/-! ## Dependents -/

theorem ClassGraph.mem_dependents_classes {g : ClassGraph} :
    s ∈ dependents g.classes t ↔ s ≠ t ∧ ∃ k, g.Relates k s t := by
  simp only [dependents, mem_nameSet, List.mem_filter, decide_eq_true_eq, mem_outgoing, ClassGraph.Relates]
  constructor
  · rintro ⟨c, ⟨hc, hne, k, hk⟩, rfl⟩
    exact ⟨hne.symm, k, c, hc, rfl, hk⟩
  · rintro ⟨hne, k, c, hc, rfl, hk⟩
    exact ⟨c, ⟨hc, hne.symm, k, hk⟩, rfl⟩

/-- entries differ by their counts alone from the classes that were counted -/
theorem dependents_entries (l : List ClassInfo) (n : String) :
    dependents (l.map (restricted l)) n = dependents (assemble l).classes n := by
  simp only [dependents, nameSet, classes_assemble, List.filter_map, List.map_map]
  rfl

/-- an entry counts its dependents in the graph that holds it -/
theorem incoming_entry (hc : c ∈ l) : (entry l c).incoming = (dependents (assemble l).classes c.name).size := by
  rw [← dependents_entries, ← name_entry hc]
  rfl

end ClassAtlas.Graph
