/-
What a built class graph holds: the classes of the list it is built from, one by one and in their order, each restricted
to the repository.

- `Settled l c d`: `d` is the class `c` of the list `l` as the graph holds it. It keeps path and name, takes its kind
  flags from the first class of its name, and relates by each kind to exactly those names of `l` that `c` relates to,
  its own left out.
- `classes_settled`: the classes of the graph are those of the list, settled.
- `build_eq_ok`: the check of the finished graph never finds a fault, so building always succeeds.
-/
import Mathlib.Data.List.Forall2
import ClassAtlas.Graph.Relation
import ClassAtlas.Graph.Basic

namespace ClassAtlas.Graph

open ClassAtlas.Source ClassAtlas.Collect

/-! ## Relations of one class -/

theorem mem_nameSet {l : List ClassInfo} {n : String} : n ∈ nameSet l ↔ ∃ c ∈ l, c.name = n := by
  simp [nameSet]

theorem mem_targets_restrict {names : NameSet} {c : ClassInfo} {k : RelationKind} {t : String} :
    t ∈ targets (restrict names c) k ↔ t ∈ targets c k ∧ t ≠ c.name ∧ t ∈ names := by
  cases k with
  | inheritance =>
    simp only [targets, restrict, Option.mem_toList, Option.filter_eq_some_iff, Bool.and_eq_true, bne_iff_ne,
      decide_eq_true_eq]
  | _ =>
    simp only [targets, restrict, NameSet.mem_toList, NameSet.mem_filter, Bool.and_eq_true, bne_iff_ne,
      decide_eq_true_eq]

theorem mem_outgoing {c : ClassInfo} {n : String} : n ∈ c.outgoing ↔ n ≠ c.name ∧ ∃ k, n ∈ targets c k := by
  have kinds : (∃ k, n ∈ targets c k) ↔ n ∈ c.interfaces.toList ++ c.parent.toList ++ c.compositions.toList ++
      c.aggregations.toList ++ c.associations.toList ++ c.dependencies.toList := by
    simp only [List.mem_append]
    constructor
    · rintro ⟨k, hk⟩
      cases k <;> simp only [targets] at hk <;> simp only [hk, true_or, or_true]
    · rintro (((((h | h) | h) | h) | h) | h)
      · exact ⟨.implementation, h⟩
      · exact ⟨.inheritance, h⟩
      · exact ⟨.composition, h⟩
      · exact ⟨.aggregation, h⟩
      · exact ⟨.association, h⟩
      · exact ⟨.dependency, h⟩
  rw [kinds, ClassInfo.outgoing, NameSet.mem_filter, NameSet.mem_ofList, bne_iff_ne]
  exact and_comm

theorem refersToItself_iff {c : ClassInfo} : refersToItself c = true ↔ ∃ k, c.name ∈ targets c k := by
  simp only [refersToItself, Bool.or_eq_true, beq_iff_eq, decide_eq_true_eq]
  constructor
  · rintro (((((h | h) | h) | h) | h) | h)
    · exact ⟨.inheritance, by simp [targets, h]⟩
    · exact ⟨.implementation, h⟩
    · exact ⟨.composition, h⟩
    · exact ⟨.aggregation, h⟩
    · exact ⟨.association, h⟩
    · exact ⟨.dependency, h⟩
  · rintro ⟨k, hk⟩
    cases k with
    | inheritance => simp only [targets, Option.mem_toList] at hk; simp [hk]
    | _ => simp only [targets, NameSet.mem_toList] at hk; simp [hk]

/-! ## Classes as the graph holds them -/

/-- `d` is the class `c` of the list `l` as the graph of `l` holds it -/
structure Settled (l : List ClassInfo) (c d : ClassInfo) : Prop where
  path : d.path = c.path
  name : d.name = c.name
  /-- the first class of the name decides the kind flags -/
  flags : ∃ first, l.find? (fun b => b.name == c.name) = some first ∧
    d.isInterface = first.isInterface ∧ d.isAbstract = first.isAbstract
  targets : ∀ k t, t ∈ targets d k ↔ t ∈ targets c k ∧ t ≠ c.name ∧ ∃ b ∈ l, b.name = t

theorem exists_first {l : List ClassInfo} {c : ClassInfo} (hc : c ∈ l) :
    ∃ first, l.find? (fun b => b.name == c.name) = some first := by
  cases hf : l.find? (fun b => b.name == c.name) with
  | some first => exact ⟨first, rfl⟩
  | none => exact absurd (by simp) (List.find?_eq_none.1 hf c hc)

theorem targets_firstFlags (l : List ClassInfo) (c : ClassInfo) (k : RelationKind) :
    targets (firstFlags l c) k = targets c k := by
  unfold firstFlags
  split
  · rfl
  · cases k <;> rfl

theorem settled_of_mem {l : List ClassInfo} {c : ClassInfo} (hc : c ∈ l) (n : Nat) :
    Settled l c { restrict (nameSet l) (firstFlags l c) with incoming := n } := by
  obtain ⟨first, hfirst⟩ := exists_first hc
  have hflags : firstFlags l c = { c with isInterface := first.isInterface, isAbstract := first.isAbstract } := by
    simp only [firstFlags, hfirst]
  refine ⟨by rw [hflags]; rfl, by rw [hflags]; rfl, ⟨first, hfirst, by rw [hflags]; rfl, by rw [hflags]; rfl⟩, ?_⟩
  intro k t
  have hname : (firstFlags l c).name = c.name := by rw [hflags]
  have hrest : Graph.targets { restrict (nameSet l) (firstFlags l c) with incoming := n } k =
      Graph.targets (restrict (nameSet l) (firstFlags l c)) k := by cases k <;> rfl
  rw [hrest, mem_targets_restrict, targets_firstFlags, hname, mem_nameSet]

/-- the classes of a graph are those of the list it is built from, in their order and settled -/
theorem classes_settled (l : List ClassInfo) : List.Forall₂ (Settled l) l (assemble l).classes := by
  simp only [assemble, List.map_map, List.forall₂_map_right_iff, List.forall₂_same]
  intro c hc
  exact settled_of_mem hc _

theorem exists_settled {l : List ClassInfo} {d : ClassInfo} (hd : d ∈ (assemble l).classes) :
    ∃ c ∈ l, Settled l c d := by
  obtain ⟨i, hi, rfl⟩ := List.mem_iff_getElem.1 hd
  have hlen := (classes_settled l).length_eq
  exact ⟨l[i], List.getElem_mem _, (classes_settled l).get _ _⟩

/-- what settling leaves as it is, is the same in the list and in the graph -/
theorem map_classes {l : List ClassInfo} {β : Type} {f : ClassInfo → β} (hf : ∀ {c d}, Settled l c d → f d = f c) :
    (assemble l).classes.map f = l.map f := by
  have h : List.Forall₂ (fun a b : β => a = b) ((assemble l).classes.map f) (l.map f) := by
    rw [List.forall₂_map_left_iff, List.forall₂_map_right_iff]
    exact (classes_settled l).flip.imp fun d c hs => hf hs
  exact List.forall₂_eq_eq_eq ▸ h

theorem names_classes (l : List ClassInfo) : (assemble l).classes.map (·.name) = l.map (·.name) :=
  map_classes fun hs => hs.name

theorem paths_classes (l : List ClassInfo) : (assemble l).classes.map (·.path) = l.map (·.path) :=
  map_classes fun hs => hs.path

/-! ## The check of the finished graph -/

theorem faultOf?_settled {l : List ClassInfo} {c d : ClassInfo} (h : Settled l c d) : faultOf? (nameSet l) d = none := by
  have hout : d.outgoing.toList.find? (fun n => !decide (n ∈ nameSet l)) = none := by
    rw [List.find?_eq_none]
    intro n hn
    obtain ⟨-, k, hk⟩ := mem_outgoing.1 hn
    simpa using mem_nameSet.2 ((h.targets k n).1 hk).2.2
  have hself : ¬ refersToItself d = true := by
    rw [refersToItself_iff]
    rintro ⟨k, hk⟩
    exact ((h.targets k d.name).1 hk).2.1 h.name
  simp only [faultOf?, hout, hself]
  rfl

/-- **Building never fails.** -/
theorem build_eq_ok (l : List ClassInfo) : build l = .ok (assemble l) := by
  have hnone : (assemble l).fault? = none := by
    rw [ClassGraph.fault?, List.findSome?_eq_none_iff]
    intro d hd
    obtain ⟨c, -, hs⟩ := exists_settled hd
    exact faultOf?_settled hs
  simp only [build, hnone]

end ClassAtlas.Graph
