/-
The degrees of the coupling table, counted on the diagram.

Three computations look at the same graph, each in its own way: `dependents` collects the names that lead to a name,
`outgoing` unites the six relations of one class, and the diagram keeps one edge for each ordered pair of names. Several
files may share a class name, so a row of the table speaks of one file where an edge speaks of all files of a name. Every
count is here a number of names without repetition, and each of these names is tied to `ClassGraph.Relates`.

- `size_dependents`: as many names lead to a name as edges do.
- `size_outgoing_le`, `size_outgoing_eq`: a class leads to no more names than edges start at its name, and to as many if no
  other class has the name.
- `length_edges`: each edge is counted once, under the name it leads to.
- `degrees_agree`: the rows of the coupling table against the edges of the diagram.
-/
import Mathlib.Algebra.BigOperators.Group.Finset.Basic
import ClassAtlas.Graph.Coupling
import ClassAtlas.Proofs.Diagram.Exactness
import ClassAtlas.Proofs.Graph.Relations

namespace ClassAtlas.Graph

open ClassAtlas.Source ClassAtlas.Collect

namespace ClassGraph

variable {g : ClassGraph} {s t : String}

/-- the edges that lead to a name -/
def edgesTo (g : ClassGraph) (t : String) : List Edge := g.edges.filter fun e => e.target == t

/-- the edges that start at a name -/
def edgesFrom (g : ClassGraph) (s : String) : List Edge := g.edges.filter fun e => e.source == s

/-! ## The ends of edges -/

/-- edges that agree in one end differ in the other -/
theorem ends_nodup (g : ClassGraph) {p : Edge → Bool} {far : Edge → String}
    (h : ∀ e f, p e = true → p f = true → far e = far f → (e.source, e.target) = (f.source, f.target)) :
    ((g.edges.filter p).map far).Nodup := by
  refine List.Nodup.map_on ?_ (g.edges_nodup.of_map.filter _)
  intro e he f hf heq
  obtain ⟨he, hpe⟩ := List.mem_filter.1 he
  obtain ⟨hf, hpf⟩ := List.mem_filter.1 hf
  exact List.inj_on_of_nodup_map g.edges_nodup he hf (h e f hpe hpf heq)

theorem sources_nodup (g : ClassGraph) (t : String) : ((g.edgesTo t).map (·.source)).Nodup := by
  refine g.ends_nodup fun e f he hf heq => Prod.ext heq ?_
  exact (eq_of_beq he).trans (eq_of_beq hf).symm

theorem destinations_nodup (g : ClassGraph) (s : String) : ((g.edgesFrom s).map (·.target)).Nodup := by
  refine g.ends_nodup fun e f he hf heq => Prod.ext ?_ heq
  exact (eq_of_beq he).trans (eq_of_beq hf).symm

theorem mem_sources : s ∈ (g.edgesTo t).map (·.source) ↔ s ≠ t ∧ ∃ k, g.Relates k s t := by
  rw [← exists_edge_iff, edgesTo]
  simp only [List.mem_map, List.mem_filter, beq_iff_eq]
  exact ⟨fun ⟨e, ⟨he, ht⟩, hs⟩ => ⟨e, he, hs, ht⟩, fun ⟨e, he, hs, ht⟩ => ⟨e, ⟨he, ht⟩, hs⟩⟩

theorem mem_destinations : t ∈ (g.edgesFrom s).map (·.target) ↔ s ≠ t ∧ ∃ k, g.Relates k s t := by
  rw [← exists_edge_iff, edgesFrom]
  simp only [List.mem_map, List.mem_filter, beq_iff_eq]
  exact ⟨fun ⟨e, ⟨he, hs⟩, ht⟩ => ⟨e, he, hs, ht⟩, fun ⟨e, he, hs, ht⟩ => ⟨e, ⟨he, hs⟩, ht⟩⟩

/-- as many names lead to a name as edges do -/
theorem size_dependents (g : ClassGraph) (t : String) : (dependents g.classes t).size = (g.edgesTo t).length := by
  rw [NameSet.size_eq_length (g.sources_nodup t), List.length_map]
  intro s
  rw [mem_dependents_classes, mem_sources]

/-- each edge is counted once, under the name it leads to -/
theorem length_edges (g : ClassGraph) {names : List String} (hnames : names.Nodup)
    (hmem : ∀ e ∈ g.edges, e.target ∈ names) :
    (names.map fun n => (g.edgesTo n).length).foldr (· + ·) 0 = g.edges.length := by
  have hcount : ∀ n, (g.edgesTo n).length = Multiset.count n (g.edges.map (·.target) : Multiset String) := by
    intro n
    rw [Multiset.coe_count, List.count_eq_length_filter, List.filter_map, List.length_map]
    rfl
  have hcover : ∀ n ∈ (g.edges.map (·.target) : Multiset String), n ∈ names.toFinset := by
    intro n hn
    obtain ⟨e, he, rfl⟩ := List.mem_map.1 (Multiset.mem_coe.1 hn)
    exact List.mem_toFinset.2 (hmem e he)
  calc (names.map fun n => (g.edgesTo n).length).foldr (· + ·) 0
      = ∑ n ∈ names.toFinset, (g.edgesTo n).length := (List.sum_toFinset _ hnames).symm
    _ = ∑ n ∈ names.toFinset, Multiset.count n (g.edges.map (·.target) : Multiset String) := by simp only [hcount]
    _ = g.edges.length := by rw [Multiset.sum_count_eq_card hcover, Multiset.coe_card, List.length_map]

/-! ## Outgoing names -/

theorem relates_of_outgoing {d : ClassInfo} (hd : d ∈ g.classes) {n : String} (hn : n ∈ d.outgoing) :
    d.name ≠ n ∧ ∃ k, g.Relates k d.name n := by
  obtain ⟨hne, k, hk⟩ := mem_outgoing.1 hn
  exact ⟨hne.symm, k, d, hd, rfl, hk⟩

theorem size_outgoing_le {d : ClassInfo} (hd : d ∈ g.classes) : d.outgoing.size ≤ (g.edgesFrom d.name).length := by
  rw [← List.length_map (·.target)]
  refine NameSet.size_le_length fun n hn => ?_
  exact mem_destinations.2 (relates_of_outgoing hd hn)

theorem size_outgoing_eq {d : ClassInfo} (hd : d ∈ g.classes) (honly : ∀ d' ∈ g.classes, d'.name = d.name → d' = d) :
    d.outgoing.size = (g.edgesFrom d.name).length := by
  rw [← List.length_map (·.target)]
  refine NameSet.size_eq_length (g.destinations_nodup _) fun n => ?_
  rw [mem_destinations]
  constructor
  · exact relates_of_outgoing hd
  · rintro ⟨hne, k, d', hd', hname, hk⟩
    obtain rfl := honly d' hd' hname
    exact mem_outgoing.2 ⟨hne.symm, k, hk⟩

end ClassGraph

/-! ## Rows of a built graph -/

section

variable {l : List ClassInfo} {c : ClassInfo}

theorem entry_mem_classes (hc : c ∈ l) : entry l c ∈ (assemble l).classes := by
  rw [classes_assemble]
  exact List.mem_map_of_mem hc

theorem incoming_eq_edgesTo (hc : c ∈ l) : (entry l c).incoming = ((assemble l).edgesTo c.name).length := by
  rw [incoming_entry hc, ClassGraph.size_dependents]

/-- a name does not lead to itself -/
theorem incoming_lt (hc : c ∈ l) : (entry l c).incoming < (nameSet l).size := by
  rw [incoming_entry hc]
  refine NameSet.size_lt_size (fun s hs => ?_) (mem_nameSet_of_mem hc) fun hself => ?_
  · obtain ⟨-, k, hk⟩ := ClassGraph.mem_dependents_classes.1 hs
    exact (mem_nameSet_of_relates hk).1
  · exact (ClassGraph.mem_dependents_classes.1 hself).1 rfl

theorem outgoing_lt (hc : c ∈ l) : (entry l c).outgoing.size < (nameSet l).size := by
  refine NameSet.size_lt_size (fun t ht => ?_) (mem_nameSet_of_mem hc) fun hself => ?_
  · obtain ⟨-, k, hk⟩ := ClassGraph.relates_of_outgoing (entry_mem_classes hc) ht
    exact (mem_nameSet_of_relates hk).2
  · exact (mem_outgoing.1 hself).1 (name_entry hc).symm

theorem outgoing_eq_edgesFrom (hc : c ∈ l) (honly : ∀ b ∈ l, b.name = c.name → b = c) :
    (entry l c).outgoing.size = ((assemble l).edgesFrom c.name).length := by
  rw [← name_entry hc]
  refine ClassGraph.size_outgoing_eq (entry_mem_classes hc) fun d hd hname => ?_
  rw [classes_assemble] at hd
  obtain ⟨b, hb, rfl⟩ := List.mem_map.1 hd
  rw [name_entry hb, name_entry hc] at hname
  rw [honly b hb hname]

end

/-- what the row of a class says, against the edges drawn for its graph -/
structure DegreesAgree {α : Type} (l : List ClassInfo) (g : ClassGraph) (c : ClassInfo) (row : CouplingRow α) :
    Prop where
  path : row.path = c.path
  incoming : row.incoming = (g.edgesTo c.name).length
  outgoing_le : row.outgoing ≤ (g.edgesFrom c.name).length
  /-- files that share the name may each hold a part of its edges; a single file holds them all -/
  outgoing_eq : (∀ b ∈ l, b.name = c.name → b = c) → row.outgoing = (g.edgesFrom c.name).length
  incoming_le : row.incoming ≤ g.names.size - 1
  outgoing_le_names : row.outgoing ≤ g.names.size - 1
  /-- the sum that instability divides by does not wrap around in a word that has room for twice the names -/
  sum_lt : ∀ bits, 2 * g.names.size < 2 ^ bits → row.incoming + row.outgoing < 2 ^ bits

theorem degreesAgree_entry (α : Type) [Scalar α] {l : List ClassInfo} {c : ClassInfo} (hc : c ∈ l) :
    DegreesAgree l (assemble l) c (couplingOf (entry l c) : CouplingRow α) := by
  have hin : (entry l c).incoming < (assemble l).names.size := incoming_lt hc
  have hout : (entry l c).outgoing.size < (assemble l).names.size := outgoing_lt hc
  refine ⟨(settled_entry hc).path, incoming_eq_edgesTo hc, ?_, outgoing_eq_edgesFrom hc, ?_, ?_, ?_⟩
  · rw [← name_entry hc]
    exact ClassGraph.size_outgoing_le (entry_mem_classes hc)
  · exact Nat.le_sub_one_of_lt hin
  · exact Nat.le_sub_one_of_lt hout
  · intro bits hbits
    calc (entry l c).incoming + (entry l c).outgoing.size
        < (assemble l).names.size + (assemble l).names.size := Nat.add_lt_add hin hout
      _ = 2 * (assemble l).names.size := (Nat.two_mul _).symm
      _ < 2 ^ bits := hbits

/-- the incoming degrees, taken once for each name, add up to the number of edges -/
theorem sum_incoming_declared (l : List ClassInfo) :
    ((assemble l).declared.map (·.incoming)).foldr (· + ·) 0 = (assemble l).edges.length := by
  have hdegree : (assemble l).declared.map (·.incoming) =
      ((assemble l).declared.map (·.name)).map fun n => ((assemble l).edgesTo n).length := by
    rw [List.map_map]
    refine List.map_congr_left fun d hd => ?_
    have hmem := ClassGraph.mem_classes_of_mem_declared hd
    rw [classes_assemble] at hmem
    obtain ⟨c, hc, rfl⟩ := List.mem_map.1 hmem
    rw [incoming_eq_edgesTo hc, Function.comp_apply, name_entry hc]
  rw [hdegree]
  refine (assemble l).length_edges (assemble l).declared_names_nodup fun e he => ?_
  have hrelates := (ClassGraph.mem_edges.1 he).2.1
  exact mem_declared_names_assemble.2 (mem_nameSet_of_relates hrelates).2

/-- **Degrees agree with the diagram.** For every list of classes the graph is built, the coupling table has one row for
each class and in their order, and each row agrees with the edges drawn. The incoming degrees, taken once for each
distinct name, add up to the number of edges. -/
theorem degrees_agree (α : Type) [Scalar α] (l : List ClassInfo) :
    ∃ g, build l = .ok g ∧ (∀ n, n ∈ g.names ↔ ∃ c ∈ l, c.name = n) ∧
      List.Forall₂ (DegreesAgree l g) l (g.coupling : List (CouplingRow α)) ∧
      ((g.declared.map (·.name)).Nodup ∧ ∀ n, n ∈ g.declared.map (·.name) ↔ n ∈ g.names) ∧
      (g.declared.map fun d => (couplingOf d : CouplingRow α).incoming).foldr (· + ·) 0 = g.edges.length := by
  refine ⟨assemble l, build_eq_ok l, fun n => mem_nameSet, ?_,
    ⟨(assemble l).declared_names_nodup, fun n => mem_declared_names_assemble⟩, sum_incoming_declared l⟩
  rw [ClassGraph.coupling, classes_assemble, List.map_map, List.forall₂_map_right_iff, List.forall₂_same]
  intro c hc
  exact degreesAgree_entry α hc

end ClassAtlas.Graph
