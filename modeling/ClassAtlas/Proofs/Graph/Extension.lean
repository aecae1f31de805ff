/-
A file with a new class name extends a class graph and disturbs nothing in it.

A further name changes which targets survive in every class, the counts of dependents, and the one pass that keeps the
first relation of each pair. Here `before ++ after` is any list of classes, names shared or not, and `z` is put between its
parts under a name that none of them has.

- `mem_targets_extended`, `incoming_extended`: what an entry gains.
- `relations_extended`: without those that touch the new name, the relations of the larger graph are those of the smaller
  one, in the same order. As a pair either touches the new name or does not, the same holds of the edges.
- `extension_conservative`: classes, edges and declarations of the two graphs compared.
-/
import ClassAtlas.Proofs.Diagram.Exactness
import ClassAtlas.Proofs.Graph.Relations

namespace ClassAtlas.Graph

open ClassAtlas.Source ClassAtlas.Collect

section

variable {before after : List ClassInfo} {z c : ClassInfo} {k : RelationKind} {n s t : String}

/-! ## The list with the new class -/

theorem mem_extended : c ∈ before ++ z :: after ↔ c = z ∨ c ∈ before ++ after := by
  rw [List.perm_middle.mem_iff, List.mem_cons]

theorem mem_nameSet_extended : n ∈ nameSet (before ++ z :: after) ↔ n = z.name ∨ n ∈ nameSet (before ++ after) := by
  simp only [mem_nameSet, mem_extended]
  constructor
  · rintro ⟨c, rfl | hc, rfl⟩
    · exact Or.inl rfl
    · exact Or.inr ⟨c, hc, rfl⟩
  · rintro (rfl | ⟨c, hc, rfl⟩)
    · exact ⟨z, Or.inl rfl, rfl⟩
    · exact ⟨c, Or.inr hc, rfl⟩

/-- the first class of another name stays the first -/
theorem find?_extended (hn : n ≠ z.name) :
    (before ++ z :: after).find? (fun c => c.name == n) = (before ++ after).find? fun c => c.name == n := by
  have hz : (z.name == n) = false := by simpa using hn.symm
  rw [List.find?_append, List.find?_append, List.find?_cons_of_neg (by simp [hz])]

/-! ## Entries -/

/-- an entry gains the new name where the class relates to it -/
theorem mem_targets_extended (hnew : ∀ c ∈ before ++ after, c.name ≠ z.name) (hc : c ∈ before ++ after) :
    t ∈ targets (entry (before ++ z :: after) c) k ↔
      t ∈ targets (entry (before ++ after) c) k ∨ t = z.name ∧ z.name ∈ targets c k := by
  have hsmall := (settled_entry hc).targets k t
  have hlarge := (settled_entry (mem_extended.2 (Or.inr hc) : c ∈ before ++ z :: after)).targets k t
  rw [hlarge, hsmall, ← mem_nameSet, ← mem_nameSet, mem_nameSet_extended]
  constructor
  · rintro ⟨ht, hne, rfl | hin⟩
    · exact Or.inr ⟨rfl, ht⟩
    · exact Or.inl ⟨ht, hne, hin⟩
  · rintro (⟨ht, hne, hin⟩ | ⟨rfl, ht⟩)
    · exact ⟨ht, hne, Or.inr hin⟩
    · exact ⟨ht, (hnew c hc).symm, Or.inl rfl⟩

theorem relates_extended (hnew : ∀ c ∈ before ++ after, c.name ≠ z.name) (hn : n ∈ nameSet (before ++ after)) :
    (assemble (before ++ z :: after)).Relates k s n ↔
      (assemble (before ++ after)).Relates k s n ∨ s = z.name ∧ n ∈ targets z k := by
  simp only [relates_assemble_iff, mem_nameSet_extended, hn, or_true, and_true, mem_extended]
  constructor
  · rintro ⟨hne, c, rfl | hc, rfl, ht⟩
    · exact Or.inr ⟨rfl, ht⟩
    · exact Or.inl ⟨hne, c, hc, rfl, ht⟩
  · rintro (⟨hne, c, hc, rfl, ht⟩ | ⟨rfl, ht⟩)
    · exact ⟨hne, c, Or.inr hc, rfl, ht⟩
    · obtain ⟨b, hb, rfl⟩ := mem_nameSet.1 hn
      exact ⟨(hnew b hb).symm, z, Or.inl rfl, rfl, ht⟩

theorem mem_dependents_extended (hnew : ∀ c ∈ before ++ after, c.name ≠ z.name) (hn : n ∈ nameSet (before ++ after)) :
    s ∈ dependents (assemble (before ++ z :: after)).classes n ↔
      s ∈ dependents (assemble (before ++ after)).classes n ∨ s = z.name ∧ n ∈ z.outgoing := by
  simp only [ClassGraph.mem_dependents_classes, relates_extended hnew hn, mem_outgoing]
  constructor
  · rintro ⟨hne, k, hk | ⟨rfl, hk⟩⟩
    · exact Or.inl ⟨hne, k, hk⟩
    · exact Or.inr ⟨rfl, hne.symm, k, hk⟩
  · rintro (⟨hne, k, hk⟩ | ⟨rfl, hne, k, hk⟩)
    · exact ⟨hne, k, Or.inl hk⟩
    · exact ⟨hne.symm, k, Or.inr ⟨rfl, hk⟩⟩

/-- an entry counts one dependent more exactly if the new class leads to it -/
theorem incoming_extended (hnew : ∀ c ∈ before ++ after, c.name ≠ z.name) (hc : c ∈ before ++ after) :
    (entry (before ++ z :: after) c).incoming =
      (entry (before ++ after) c).incoming + if c.name ∈ z.outgoing then 1 else 0 := by
  have hmem : ∀ s, s ∈ dependents (assemble (before ++ z :: after)).classes c.name ↔
      s ∈ dependents (assemble (before ++ after)).classes c.name ∨ s = z.name ∧ c.name ∈ z.outgoing :=
    fun s => mem_dependents_extended hnew (mem_nameSet_of_mem hc)
  rw [incoming_entry hc, incoming_entry (mem_extended.2 (Or.inr hc))]
  split_ifs with hout
  · -- the new name was no dependent before, as no class had it
    have hfresh : z.name ∉ dependents (assemble (before ++ after)).classes c.name := by
      intro hz
      obtain ⟨-, k, hk⟩ := ClassGraph.mem_dependents_classes.1 hz
      obtain ⟨b, hb, hname⟩ := mem_nameSet.1 (mem_nameSet_of_relates hk).1
      exact hnew b hb hname
    have hnodup := List.nodup_cons.2 ⟨hfresh, NameSet.nodup _⟩
    rw [NameSet.size_eq_length hnodup, List.length_cons]
    · rfl
    · intro s
      rw [hmem, List.mem_cons, NameSet.mem_toList]
      simp only [hout, and_true]
      exact or_comm
  · have hsame : dependents (assemble (before ++ z :: after)).classes c.name =
        dependents (assemble (before ++ after)).classes c.name := by
      refine NameSet.ext fun s => ?_
      rw [hmem]
      simp only [hout, and_false, or_false]
    rw [hsame, Nat.add_zero]

/-! ## Relations and edges -/

/-- whether neither end is the name -/
def Edge.avoids (n : String) (e : Edge) : Bool := e.source != n && e.target != n

theorem targets_filter_extended (hnew : ∀ c ∈ before ++ after, c.name ≠ z.name) (hc : c ∈ before ++ after) :
    (targets (entry (before ++ z :: after) c) k).filter (fun t => t != z.name) =
      targets (entry (before ++ after) c) k := by
  -- both lists ascend, so their members decide
  refine NameSet.eq_of_pairwise_of_mem_iff ((targets_pairwise _ k).filter _) (targets_pairwise _ k) fun t => ?_
  rw [List.mem_filter, mem_targets_extended hnew hc, bne_iff_ne]
  constructor
  · rintro ⟨ht | ⟨rfl, -⟩, hne⟩
    · exact ht
    · exact absurd rfl hne
  · intro ht
    obtain ⟨b, hb, rfl⟩ := (((settled_entry hc).targets k t).1 ht).2.2
    exact ⟨Or.inl ht, hnew b hb⟩

/-- the relations of one class by one kind -/
def relationsBy (k : RelationKind) (c : ClassInfo) : List Edge := (targets c k).map (Edge.mk c.name k)

theorem relationsBy_extended (hnew : ∀ c ∈ before ++ after, c.name ≠ z.name) (hc : c ∈ before ++ after) :
    (relationsBy k (entry (before ++ z :: after) c)).filter (Edge.avoids z.name) =
      relationsBy k (entry (before ++ after) c) := by
  rw [relationsBy, relationsBy, name_entry hc, name_entry (mem_extended.2 (Or.inr hc)), List.filter_map,
    ← targets_filter_extended hnew hc]
  refine congrArg _ (List.filter_congr fun t _ => ?_)
  simp [Edge.avoids, hnew c hc]

theorem relationsBy_new (k : RelationKind) :
    (relationsBy k (entry (before ++ z :: after) z)).filter (Edge.avoids z.name) = [] := by
  rw [relationsBy, name_entry (mem_extended.2 (Or.inl rfl)), List.filter_eq_nil_iff]
  intro e he
  obtain ⟨t, -, rfl⟩ := List.mem_map.1 he
  simp [Edge.avoids]

/-- **Relations of the larger graph.** Those that do not touch the new name are the relations of the smaller one. -/
theorem relations_extended (hnew : ∀ c ∈ before ++ after, c.name ≠ z.name) :
    (assemble (before ++ z :: after)).relations.filter (Edge.avoids z.name) =
      (assemble (before ++ after)).relations := by
  have hrelations : ∀ l, (assemble l).relations =
      RelationKind.precedence.flatMap fun k => l.flatMap fun c => relationsBy k (entry l c) := by
    intro l
    simp only [ClassGraph.relations, classes_assemble, List.flatMap_map]
    rfl
  have hkept : ∀ k, ∀ part : List ClassInfo, (∀ c ∈ part, c ∈ before ++ after) →
      (part.flatMap fun c => (relationsBy k (entry (before ++ z :: after) c)).filter (Edge.avoids z.name)) =
        part.flatMap fun c => relationsBy k (entry (before ++ after) c) :=
    fun k part hpart => List.flatMap_congr fun c hc => relationsBy_extended hnew (hpart c hc)
  rw [hrelations, hrelations, List.filter_flatMap]
  refine List.flatMap_congr fun k _ => ?_
  rw [List.filter_flatMap, List.flatMap_append, List.flatMap_cons, relationsBy_new, List.nil_append,
    List.flatMap_append, hkept k before fun c hc => List.mem_append_left _ hc,
    hkept k after fun c hc => List.mem_append_right _ hc]

theorem edges_extended (hnew : ∀ c ∈ before ++ after, c.name ≠ z.name) :
    (assemble (before ++ z :: after)).edges.filter (Edge.avoids z.name) = (assemble (before ++ after)).edges := by
  have hkey := filter_keepFirst (fun e : Edge => (e.source, e.target)) (fun p => p.1 != z.name && p.2 != z.name)
    ((assemble (before ++ z :: after)).relations.filter fun e => e.target != e.source)
  rw [ClassGraph.edges, ClassGraph.edges, ← relations_extended hnew]
  refine hkey.trans ?_
  rw [List.filter_filter, List.filter_filter]
  refine congrArg _ (List.filter_congr fun e _ => ?_)
  rw [Bool.and_comm]
  rfl

/-! ## Declarations -/

theorem names_filter_extended (hnew : ∀ c ∈ before ++ after, c.name ≠ z.name) :
    ((before ++ z :: after).map (·.name)).filter (fun n => n != z.name) = (before ++ after).map (·.name) := by
  have hkept : ∀ part : List ClassInfo, (∀ c ∈ part, c ∈ before ++ after) →
      (part.map (·.name)).filter (fun n => n != z.name) = part.map (·.name) := by
    intro part hpart
    refine List.filter_eq_self.2 fun n hn => ?_
    obtain ⟨c, hc, rfl⟩ := List.mem_map.1 hn
    simpa using hnew c (hpart c hc)
  rw [List.map_append, List.map_cons, List.filter_append, List.filter_cons_of_neg (by simp), List.map_append,
    hkept before fun c hc => List.mem_append_left _ hc, hkept after fun c hc => List.mem_append_right _ hc]

theorem declared_names_extended (hnew : ∀ c ∈ before ++ after, c.name ≠ z.name) :
    ((assemble (before ++ z :: after)).declared.filter fun d => d.name != z.name).map (·.name) =
      (assemble (before ++ after)).declared.map (·.name) := by
  have hfilter : ((assemble (before ++ z :: after)).declared.filter fun d => d.name != z.name).map (·.name) =
      ((assemble (before ++ z :: after)).declared.map (·.name)).filter fun n => n != z.name := by
    rw [List.filter_map]
    rfl
  rw [hfilter, ClassGraph.declared_names_eq, ClassGraph.declared_names_eq, names_classes, names_classes,
    filter_keepFirst (fun n => n) fun n => n != z.name, names_filter_extended hnew]

theorem declarations_extended (hnew : ∀ c ∈ before ++ after, c.name ≠ z.name) :
    ((assemble (before ++ z :: after)).declared.filter fun d => d.name != z.name).map declarationLine =
      (assemble (before ++ after)).declared.map declarationLine := by
  rw [map_declarationLine fun d hd => ClassGraph.mem_classes_of_mem_declared (List.mem_filter.1 hd).1,
    map_declarationLine fun d hd => ClassGraph.mem_classes_of_mem_declared hd, declared_names_extended hnew]
  refine List.map_congr_left fun n hn => ?_
  obtain ⟨c, hc, rfl⟩ := mem_nameSet.1 (mem_declared_names_assemble.1 hn)
  rw [firstDeclaration, firstDeclaration, find?_extended (hnew c hc)]

end

/-! ## The two graphs -/

/-- how the class `c` of a list stands in the graph of the list, as `d`, and in the graph with the further class `z`,
as `d'` -/
structure Extended (z c d d' : ClassInfo) : Prop where
  path : d'.path = d.path
  name : d'.name = d.name
  isInterface : d'.isInterface = d.isInterface
  isAbstract : d'.isAbstract = d.isAbstract
  /-- each relation gains the new name exactly where the class relates to it -/
  targets : ∀ k t, t ∈ targets d' k ↔ t ∈ targets d k ∨ t = z.name ∧ z.name ∈ targets c k
  incoming : d'.incoming = d.incoming + if d.name ∈ z.outgoing then 1 else 0

theorem extended_entry {before after : List ClassInfo} {z c : ClassInfo}
    (hnew : ∀ c ∈ before ++ after, c.name ≠ z.name) (hc : c ∈ before ++ after) :
    Extended z c (entry (before ++ after) c) (entry (before ++ z :: after) c) := by
  have hsmall := settled_entry hc
  have hlarge : Settled (before ++ z :: after) c _ := settled_entry (mem_extended.2 (Or.inr hc))
  obtain ⟨first, hfirst, hinterface, habstract⟩ := hsmall.flags
  obtain ⟨first', hfirst', hinterface', habstract'⟩ := hlarge.flags
  obtain rfl : first' = first := by
    rw [find?_extended (hnew c hc), hfirst] at hfirst'
    exact (Option.some.inj hfirst').symm
  refine ⟨hlarge.path.trans hsmall.path.symm, hlarge.name.trans hsmall.name.symm, hinterface'.trans hinterface.symm,
    habstract'.trans habstract.symm, fun k t => mem_targets_extended hnew hc, ?_⟩
  rw [hsmall.name]
  exact incoming_extended hnew hc

/-- the graph `g'` of the list with `z` put in, against the graph `g` of the list -/
structure ExtendsBy (before after : List ClassInfo) (z : ClassInfo) (g g' : ClassGraph) : Prop where
  size : g.classes.length = (before ++ after).length
  /-- the larger graph holds one class more, -/
  size' : g'.classes.length = g.classes.length + 1
  /-- and without it, at each place, the class of the smaller graph with what the new name adds -/
  classes : ∀ (i : Nat) (c : ClassInfo), (before ++ after)[i]? = some c → ∃ d d', g.classes[i]? = some d ∧
    (g'.classes.eraseIdx before.length)[i]? = some d' ∧ Extended z c d d'
  /-- the edges that touch no new name are the same sequence, -/
  edges : (g'.edges.filter fun e => e.source != z.name && e.target != z.name) = g.edges
  /-- and so are the declarations of other names -/
  declarations : (g'.declared.filter fun d => d.name != z.name).map declarationLine = g.declared.map declarationLine

/-- without the new class the larger graph holds the same classes, each with its larger entry -/
theorem classes_eraseIdx_extended (before after : List ClassInfo) (z : ClassInfo) :
    (assemble (before ++ z :: after)).classes.eraseIdx before.length =
      (before ++ after).map (entry (before ++ z :: after)) := by
  rw [classes_assemble, List.map_append, List.map_cons, List.eraseIdx_append_of_length_le (by simp), List.map_append]
  simp

/-- **A class with a new name extends the graph** and changes nothing else in it, wherever the class stands among the
others. -/
theorem extension_conservative (before after : List ClassInfo) (z : ClassInfo)
    (hnew : ∀ c ∈ before ++ after, c.name ≠ z.name) :
    ∃ g g', build (before ++ after) = .ok g ∧ build (before ++ z :: after) = .ok g' ∧
      ExtendsBy before after z g g' := by
  refine ⟨_, _, build_eq_ok _, build_eq_ok _, ?_, ?_, ?_, edges_extended hnew, declarations_extended hnew⟩
  · rw [classes_assemble, List.length_map]
  · rw [classes_assemble, classes_assemble, List.length_map, List.length_map, List.length_append, List.length_append,
      List.length_cons, Nat.add_assoc]
  · intro i c hi
    refine ⟨_, _, ?_, ?_, extended_entry hnew (List.mem_of_getElem? hi)⟩
    · rw [classes_assemble, List.getElem?_map, hi]
      rfl
    · rw [classes_eraseIdx_extended, List.getElem?_map, hi]
      rfl

/-- two files of one name, both with a relation to a class that is not there -/
def call : ClassInfo :=
  { path := "a/Call.java", name := "Call", associations := NameSet.ofList ["Reply", "Wire"] }

def otherCall : ClassInfo := { path := "b/Call.java", name := "Call", isAbstract := true, parent := some "Wire" }

/-- the class that they miss -/
def wire : ClassInfo := { path := "Wire.java", name := "Wire", dependencies := NameSet.ofList ["Call", "Reply"] }

theorem extension_conservative_wire :
    (∀ c ∈ [call] ++ [otherCall], c.name ≠ wire.name) ∧
      ∃ g g', build ([call] ++ [otherCall]) = .ok g ∧ build ([call] ++ wire :: [otherCall]) = .ok g' ∧
        ExtendsBy [call] [otherCall] wire g g' :=
  ⟨by decide, extension_conservative [call] [otherCall] wire (by decide)⟩

end ClassAtlas.Graph
