/-
Which edges a class graph draws, and in which order.

The edges come out of one pass over the kinds, the classes and their targets that keeps the first relation of each ordered
pair of names. Several classes may share a name, so the strongest relation of a pair may sit in a later class than a
weaker one. Here each relation is placed: it carries the position of the class that holds it. The placed relations stand
in strict order (kind, position, target), so a relation that is kept is the least of its pair, and both its strength and
its position follow.

- `mem_edges`: an edge is drawn exactly when its ends differ and its kind is the strongest that relates them.
- `exists_edge_iff`: a pair has an edge exactly when its names differ and some kind relates them.
- `edges_nodup`: no pair has two edges.
- `edges_pairwise`: edges stand in the order of their kinds, then of the first class that holds them, then of their
  targets.
-/
import ClassAtlas.Graph.Diagram

namespace ClassAtlas.Graph

open ClassAtlas.Source ClassAtlas.Collect

namespace RelationKind

/-- how strong a kind is, 0 for the strongest: implementing comes before extending, then composition, aggregation,
association and dependency -/
def rank : RelationKind → Nat
  | .implementation => 0
  | .inheritance => 1
  | .composition => 2
  | .aggregation => 3
  | .association => 4
  | .dependency => 5

theorem mem_precedence (k : RelationKind) : k ∈ precedence := by cases k <;> decide

theorem precedence_pairwise : precedence.Pairwise fun j k => j.rank < k.rank := by decide

theorem rank_injective {j k : RelationKind} (h : j.rank = k.rank) : j = k := by
  revert h
  cases j <;> cases k <;> decide

end RelationKind

/-- the names of one kind stand in ascending order -/
theorem targets_pairwise (c : ClassInfo) (k : RelationKind) : (targets c k).Pairwise (· < ·) := by
  cases k with
  | inheritance => cases h : c.parent <;> simp [targets, h]
  | implementation => exact c.interfaces.ascending
  | composition => exact c.compositions.ascending
  | aggregation => exact c.aggregations.ascending
  | association => exact c.associations.ascending
  | dependency => exact c.dependencies.ascending

namespace ClassGraph

/-- some class named `s` has `t` among its names of kind `k` -/
def Relates (g : ClassGraph) (k : RelationKind) (s t : String) : Prop := ∃ c ∈ g.classes, c.name = s ∧ t ∈ targets c k

/-- of the kinds by which the classes named `s` relate to `t`, `k` is the strongest -/
def Strongest (g : ClassGraph) (k : RelationKind) (s t : String) : Prop :=
  g.Relates k s t ∧ ∀ j, g.Relates j s t → k.rank ≤ j.rank

/-- the position of the first class that holds an edge: it has the name of the source, and the target by the kind -/
def holder (g : ClassGraph) (e : Edge) : Nat :=
  g.classes.findIdx fun c => c.name == e.source && decide (e.target ∈ targets c e.kind)

/-- the order of drawing: by kind, then by the first class that holds the edge, then by target -/
def DrawnBefore (g : ClassGraph) (e f : Edge) : Prop :=
  e.kind.rank < f.kind.rank ∨ e.kind.rank = f.kind.rank ∧
    (g.holder e < g.holder f ∨ g.holder e = g.holder f ∧ e.target < f.target)

/-! ## Placed relations -/

/-- every relation, the strongest kinds first, with the position of the class that holds it -/
def placedRelations (g : ClassGraph) : List (Edge × Nat) :=
  RelationKind.precedence.flatMap fun k => g.classes.zipIdx.flatMap fun ci =>
    (targets ci.1 k).map fun t => (⟨ci.1.name, k, t⟩, ci.2)

/-- the order in which relations are met -/
def PlacedBefore (x y : Edge × Nat) : Prop :=
  x.1.kind.rank < y.1.kind.rank ∨ x.1.kind.rank = y.1.kind.rank ∧ (x.2 < y.2 ∨ x.2 = y.2 ∧ x.1.target < y.1.target)

theorem map_placedRelations (g : ClassGraph) : g.placedRelations.map Prod.fst = g.relations := by
  have hclasses : ∀ k, (g.classes.zipIdx.flatMap fun ci => (targets ci.1 k).map (Edge.mk ci.1.name k)) =
      g.classes.flatMap fun c => (targets c k).map (Edge.mk c.name k) := by
    intro k
    have h := List.flatMap_map Prod.fst (fun c => (targets c k).map (Edge.mk c.name k)) g.classes.zipIdx
    rw [List.zipIdx_map_fst] at h
    exact h.symm
  simp only [placedRelations, relations, List.map_flatMap, List.map_map, Function.comp_def, hclasses]

theorem mem_placedRelations {g : ClassGraph} {e : Edge} {i : Nat} :
    (e, i) ∈ g.placedRelations ↔ ∃ c, g.classes[i]? = some c ∧ c.name = e.source ∧ e.target ∈ targets c e.kind := by
  simp only [placedRelations, List.mem_flatMap, List.mem_map, Prod.exists, List.mk_mem_zipIdx_iff_getElem?]
  constructor
  · rintro ⟨k, -, c, j, hc, t, ht, heq⟩
    cases heq
    exact ⟨c, hc, rfl, ht⟩
  · rintro ⟨c, hc, hname, ht⟩
    exact ⟨e.kind, e.kind.mem_precedence, c, i, hc, e.target, ht, by rw [hname]⟩

theorem placedRelations_pairwise (g : ClassGraph) : g.placedRelations.Pairwise PlacedBefore := by
  have hplaces : g.classes.zipIdx.Pairwise fun x y => x.2 < y.2 := by
    rw [← List.pairwise_map (f := Prod.snd), List.zipIdx_map_snd]
    exact List.pairwise_lt_range'
  rw [placedRelations, List.pairwise_flatMap]
  refine ⟨fun k _ => ?_, ?_⟩
  · -- one kind: by position, and at one position by target
    rw [List.pairwise_flatMap]
    refine ⟨fun ci _ => ?_, ?_⟩
    · rw [List.pairwise_map]
      exact (targets_pairwise ci.1 k).imp fun h => Or.inr ⟨rfl, Or.inr ⟨rfl, h⟩⟩
    · refine hplaces.imp fun h x hx y hy => ?_
      obtain ⟨t, -, rfl⟩ := List.mem_map.1 hx
      obtain ⟨u, -, rfl⟩ := List.mem_map.1 hy
      exact Or.inr ⟨rfl, Or.inl h⟩
  · refine RelationKind.precedence_pairwise.imp fun h x hx y hy => ?_
    obtain ⟨ci, -, hx⟩ := List.mem_flatMap.1 hx
    obtain ⟨di, -, hy⟩ := List.mem_flatMap.1 hy
    obtain ⟨t, -, rfl⟩ := List.mem_map.1 hx
    obtain ⟨u, -, rfl⟩ := List.mem_map.1 hy
    exact Or.inl h

/-! ## Edges -/

/-- the edges drawn, each with the position of the class it is drawn for -/
def placedEdges (g : ClassGraph) : List (Edge × Nat) :=
  keepFirst (fun x => (x.1.source, x.1.target)) (g.placedRelations.filter fun x => x.1.target != x.1.source)

theorem map_placedEdges (g : ClassGraph) : g.placedEdges.map Prod.fst = g.edges := by
  rw [edges, ← map_placedRelations, List.filter_map, keepFirst_map]
  rfl

/-- what is kept has different ends, is a relation, and comes before every other relation of its pair -/
theorem mem_placedEdges {g : ClassGraph} {e : Edge} {i : Nat} (h : (e, i) ∈ g.placedEdges) :
    e.source ≠ e.target ∧ (e, i) ∈ g.placedRelations ∧ ∀ f j, (f, j) ∈ g.placedRelations →
      f.source = e.source → f.target = e.target → (f, j) = (e, i) ∨ PlacedBefore (e, i) (f, j) := by
  obtain ⟨hrel, hne⟩ := List.mem_filter.1 ((keepFirst_sublist _ _).subset h)
  have hends : e.source ≠ e.target := fun heq => by simp [heq] at hne
  refine ⟨hends, hrel, fun f j hf hs ht => ?_⟩
  have hfmem : (f, j) ∈ g.placedRelations.filter fun x => x.1.target != x.1.source := by
    refine List.mem_filter.2 ⟨hf, ?_⟩
    simp only [hs, ht, bne_iff_ne]
    exact hends.symm
  exact eq_or_rel_of_mem_keepFirst (g.placedRelations_pairwise.filter _) h hfmem (by rw [hs, ht])

theorem exists_placed_of_relates {g : ClassGraph} {k : RelationKind} {s t : String} (h : g.Relates k s t) :
    ∃ i, (⟨s, k, t⟩, i) ∈ g.placedRelations := by
  obtain ⟨c, hc, hname, ht⟩ := h
  obtain ⟨i, hi⟩ := List.mem_iff_getElem?.1 hc
  exact ⟨i, mem_placedRelations.2 ⟨c, hi, hname, ht⟩⟩

theorem relates_of_placed {g : ClassGraph} {e : Edge} {i : Nat} (h : (e, i) ∈ g.placedRelations) :
    g.Relates e.kind e.source e.target := by
  obtain ⟨c, hi, hname, ht⟩ := mem_placedRelations.1 h
  exact ⟨c, List.mem_of_getElem? hi, hname, ht⟩

theorem strongest_of_placedEdges {g : ClassGraph} {e : Edge} {i : Nat} (h : (e, i) ∈ g.placedEdges) :
    g.Strongest e.kind e.source e.target := by
  obtain ⟨-, hrel, hleast⟩ := mem_placedEdges h
  refine ⟨relates_of_placed hrel, fun j hj => ?_⟩
  obtain ⟨p, hp⟩ := exists_placed_of_relates hj
  rcases hleast _ p hp rfl rfl with heq | hlt | ⟨heq, -⟩
  · have hkind : j = e.kind := congrArg (fun x => x.1.kind) heq
    exact Nat.le_of_eq (congrArg RelationKind.rank hkind.symm)
  · exact Nat.le_of_lt hlt
  · exact Nat.le_of_eq heq

/-- an edge is drawn for the first class that holds it -/
theorem holder_of_placedEdges {g : ClassGraph} {e : Edge} {i : Nat} (h : (e, i) ∈ g.placedEdges) : g.holder e = i := by
  obtain ⟨-, hrel, hleast⟩ := mem_placedEdges h
  obtain ⟨c, hi, hname, ht⟩ := mem_placedRelations.1 hrel
  obtain ⟨hlt, hget⟩ := List.getElem?_eq_some_iff.1 hi
  rw [holder, List.findIdx_eq hlt]
  refine ⟨by simp [hget, hname, ht], fun j hj => ?_⟩
  -- an earlier holder would have placed the same edge before
  rw [← Bool.not_eq_true]
  intro hp
  simp only [Bool.and_eq_true, beq_iff_eq, decide_eq_true_eq] at hp
  have hmem : (e, j) ∈ g.placedRelations :=
    mem_placedRelations.2 ⟨_, List.getElem?_eq_getElem (Nat.lt_trans hj hlt), hp.1, hp.2⟩
  rcases hleast e j hmem rfl rfl with heq | hbefore
  · have : j = i := congrArg Prod.snd heq
    omega
  · rcases hbefore with hrank | ⟨-, hpos | ⟨-, htarget⟩⟩
    · exact Nat.lt_irrefl _ hrank
    · simp only at hpos
      omega
    · exact String.lt_irrefl _ htarget

theorem exists_place {g : ClassGraph} {e : Edge} (h : e ∈ g.edges) : ∃ i, (e, i) ∈ g.placedEdges := by
  rw [← map_placedEdges] at h
  obtain ⟨⟨f, i⟩, hf, rfl⟩ := List.mem_map.1 h
  exact ⟨i, hf⟩

theorem edges_nodup (g : ClassGraph) : (g.edges.map fun e => (e.source, e.target)).Nodup := by
  rw [List.nodup_iff_pairwise_ne, List.pairwise_map]
  exact keepFirst_pairwise _ _

theorem exists_edge_iff (g : ClassGraph) (s t : String) :
    (∃ e ∈ g.edges, e.source = s ∧ e.target = t) ↔ s ≠ t ∧ ∃ k, g.Relates k s t := by
  constructor
  · rintro ⟨e, he, rfl, rfl⟩
    obtain ⟨i, hi⟩ := exists_place he
    exact ⟨(mem_placedEdges hi).1, e.kind, (strongest_of_placedEdges hi).1⟩
  · rintro ⟨hne, k, hk⟩
    obtain ⟨i, hi⟩ := exists_placed_of_relates hk
    have hmem : (⟨s, k, t⟩ : Edge) ∈ g.relations.filter fun e => e.target != e.source := by
      refine List.mem_filter.2 ⟨?_, by simpa using hne.symm⟩
      rw [← map_placedRelations]
      exact List.mem_map.2 ⟨_, hi, rfl⟩
    obtain ⟨e, he, hpair⟩ := exists_mem_keepFirst (fun e : Edge => (e.source, e.target)) hmem
    exact ⟨e, he, congrArg Prod.fst hpair, congrArg Prod.snd hpair⟩

/-- **Which edges are drawn.** -/
theorem mem_edges {g : ClassGraph} {e : Edge} :
    e ∈ g.edges ↔ e.source ≠ e.target ∧ g.Strongest e.kind e.source e.target := by
  constructor
  · intro he
    obtain ⟨i, hi⟩ := exists_place he
    exact ⟨(mem_placedEdges hi).1, strongest_of_placedEdges hi⟩
  · rintro ⟨hne, hstrong⟩
    obtain ⟨f, hf, hs, ht⟩ := (exists_edge_iff g e.source e.target).2 ⟨hne, e.kind, hstrong.1⟩
    obtain ⟨i, hi⟩ := exists_place hf
    have hstrongf := strongest_of_placedEdges hi
    rw [hs, ht] at hstrongf
    have hkind : f.kind = e.kind :=
      RelationKind.rank_injective (Nat.le_antisymm (hstrongf.2 _ hstrong.1) (hstrong.2 _ hstrongf.1))
    have hfe : f = e := by
      cases f; cases e
      simp only at hs ht hkind
      rw [hs, ht, hkind]
    exact hfe ▸ hf

/-- **In which order.** -/
theorem edges_pairwise (g : ClassGraph) : g.edges.Pairwise g.DrawnBefore := by
  rw [← map_placedEdges, List.pairwise_map]
  have hsorted : g.placedEdges.Pairwise PlacedBefore :=
    (g.placedRelations_pairwise.filter _).sublist (keepFirst_sublist _ _)
  refine hsorted.imp_of_mem ?_
  rintro ⟨e, i⟩ ⟨f, j⟩ he hf hbefore
  rw [DrawnBefore, holder_of_placedEdges he, holder_of_placedEdges hf]
  exact hbefore

end ClassGraph

end ClassAtlas.Graph
