/-
A built class graph is in normal form: building it again changes nothing.

Restricting the relations, sharing the flags and counting the dependents are three passes over all classes. `IsNormal l`
says, without these passes, when a list leaves them nothing to do: every relation leads to another class of the list,
each class has the flags of the first of its name, and each knows how many names lead to its own.

- `assemble_eq_iff`: the lists in normal form are exactly those that building leaves as they are.
- `isNormal_classes`: the classes of a built graph are in normal form, whatever the list was. The count is the delicate
  part: it is taken of relations already restricted, and restricting them once more must not lower it.
- `build_normalises`: what the graph of any list holds, and that building it again gives the same graph.
-/
import ClassAtlas.Proofs.Graph.Relations

namespace ClassAtlas.Graph

open ClassAtlas.Source ClassAtlas.Collect

variable {l : List ClassInfo} {c d : ClassInfo} {names : NameSet}

/-- building has nothing to do: relations, flags and counts are those that the graph of the list would have -/
structure IsNormal (l : List ClassInfo) : Prop where
  targets : ∀ c ∈ l, ∀ k, ∀ t ∈ targets c k, t ≠ c.name ∧ ∃ b ∈ l, b.name = t
  flags : ∀ c ∈ l, ∀ first, l.find? (fun b => b.name == c.name) = some first →
    c.isInterface = first.isInterface ∧ c.isAbstract = first.isAbstract
  incoming : ∀ c ∈ l, c.incoming = (dependents l c.name).size

/-! ## Lists in normal form -/

theorem restrict_eq_self (h : ∀ k, ∀ t ∈ targets c k, t ≠ c.name ∧ t ∈ names) : restrict names c = c := by
  have hkeep : ∀ k, ∀ t ∈ targets c k, (t != c.name && decide (t ∈ names)) = true := by
    intro k t ht
    simpa using h k t ht
  have hset : ∀ {s : NameSet} k, s.toList = targets c k →
      s.filter (fun n => n != c.name && decide (n ∈ names)) = s := by
    intro s k hs
    refine NameSet.ext fun t => ?_
    rw [NameSet.mem_filter]
    exact and_iff_left_of_imp fun ht => hkeep k t (hs ▸ ht)
  have hparent : c.parent.filter (fun n => n != c.name && decide (n ∈ names)) = c.parent := by
    cases hp : c.parent with
    | none => rfl
    | some t => exact Option.filter_some_pos (hkeep .inheritance t (Option.mem_toList.2 hp))
  simp only [restrict, hparent, hset .implementation rfl, hset .composition rfl, hset .aggregation rfl,
    hset .association rfl, hset .dependency rfl]

theorem restricted_eq_self (h : IsNormal l) (hc : c ∈ l) : restricted l c = c := by
  obtain ⟨first, hfirst⟩ := exists_first hc
  obtain ⟨hinterface, habstract⟩ := h.flags c hc first hfirst
  have hflags : firstFlags l c = c := by
    simp only [firstFlags, hfirst, ← hinterface, ← habstract]
  rw [restricted, hflags]
  refine restrict_eq_self fun k t ht => ?_
  obtain ⟨hne, hin⟩ := h.targets c hc k t ht
  exact ⟨hne, mem_nameSet.2 hin⟩

theorem classes_eq_self (h : IsNormal l) : (assemble l).classes = l := by
  have hrestricted : l.map (restricted l) = l :=
    (List.map_congr_left fun c hc => restricted_eq_self h hc).trans (List.map_id l)
  rw [classes_assemble]
  refine (List.map_congr_left fun c hc => ?_).trans (List.map_id l)
  rw [entry, hrestricted, restricted_eq_self h hc, ← h.incoming c hc]
  rfl

/-! ## Built graphs -/

theorem exists_named_iff {t : String} : (∃ d ∈ (assemble l).classes, d.name = t) ↔ ∃ c ∈ l, c.name = t := by
  rw [← mem_nameSet, nameSet, names_classes, ← nameSet, mem_nameSet]

theorem targets_classes (hd : d ∈ (assemble l).classes) {k : RelationKind} {t : String} (ht : t ∈ targets d k) :
    t ≠ d.name ∧ ∃ c ∈ l, c.name = t := by
  obtain ⟨c, -, hs⟩ := exists_settled hd
  obtain ⟨-, hne, hin⟩ := (hs.targets k t).1 ht
  exact ⟨hs.name ▸ hne, hin⟩

theorem flags_classes (hd : d ∈ (assemble l).classes) :
    ∃ first, l.find? (fun b => b.name == d.name) = some first ∧
      d.isInterface = first.isInterface ∧ d.isAbstract = first.isAbstract := by
  obtain ⟨c, -, hs⟩ := exists_settled hd
  rw [hs.name]
  exact hs.flags

/-- classes of one name have their flags from the same class of the list -/
theorem flags_eq_of_name_eq (hd : d ∈ (assemble l).classes) (hc : c ∈ (assemble l).classes) (h : d.name = c.name) :
    d.isInterface = c.isInterface ∧ d.isAbstract = c.isAbstract := by
  obtain ⟨first, hfirst, hdi, hda⟩ := flags_classes hd
  obtain ⟨first', hfirst', hci, hca⟩ := flags_classes hc
  rw [h, hfirst'] at hfirst
  cases hfirst
  exact ⟨hdi.trans hci.symm, hda.trans hca.symm⟩

/-- the count of a class is that of its name, taken of the finished graph -/
theorem incoming_classes (hd : d ∈ (assemble l).classes) :
    d.incoming = (dependents (assemble l).classes d.name).size := by
  obtain ⟨c, hc, rfl⟩ := List.mem_map.1 (classes_assemble l ▸ hd)
  rw [incoming_entry hc, name_entry hc]

theorem isNormal_classes (l : List ClassInfo) : IsNormal (assemble l).classes := by
  refine ⟨fun d hd k t ht => ?_, fun d hd first hfirst => ?_, fun d hd => incoming_classes hd⟩
  · rw [exists_named_iff]
    exact targets_classes hd ht
  · have hname : first.name = d.name := by simpa using List.find?_some hfirst
    exact flags_eq_of_name_eq hd (List.mem_of_find?_eq_some hfirst) hname.symm

/-- **Normal forms are the fixed points of building.** -/
theorem assemble_eq_iff : assemble l = ⟨l, nameSet l⟩ ↔ IsNormal l := by
  constructor
  · intro h
    have hclasses : (assemble l).classes = l := congrArg ClassGraph.classes h
    exact hclasses ▸ isNormal_classes l
  · intro h
    exact congrArg (fun classes => ClassGraph.mk classes (nameSet l)) (classes_eq_self h)

/-- what the graph of a list holds -/
structure NormalisedFrom (l : List ClassInfo) (g : ClassGraph) : Prop where
  length : g.classes.length = l.length
  paths : g.classes.map (·.path) = l.map (·.path)
  classNames : g.classes.map (·.name) = l.map (·.name)
  /-- class by class: the relations are those of the class of the list that lead to another class of the list -/
  settled : List.Forall₂ (Settled l) l g.classes
  names : ∀ n, n ∈ g.names ↔ ∃ c ∈ l, c.name = n
  targets : ∀ d ∈ g.classes, ∀ k, ∀ t ∈ targets d k, t ≠ d.name ∧ ∃ c ∈ l, c.name = t
  flags : ∀ d ∈ g.classes, ∃ first, l.find? (fun b => b.name == d.name) = some first ∧
    d.isInterface = first.isInterface ∧ d.isAbstract = first.isAbstract
  shared : ∀ c ∈ g.classes, ∀ d ∈ g.classes, c.name = d.name →
    c.isInterface = d.isInterface ∧ c.isAbstract = d.isAbstract ∧ c.incoming = d.incoming

theorem normalisedFrom_assemble (l : List ClassInfo) : NormalisedFrom l (assemble l) := by
  refine ⟨(classes_settled l).length_eq.symm, paths_classes l, names_classes l, classes_settled l, fun n => mem_nameSet,
    fun d hd k t ht => targets_classes hd ht, fun d hd => flags_classes hd, fun c hc d hd hname => ?_⟩
  obtain ⟨hinterface, habstract⟩ := flags_eq_of_name_eq hc hd hname
  refine ⟨hinterface, habstract, ?_⟩
  rw [incoming_classes hc, incoming_classes hd, hname]

/-- **Building always succeeds, and once is enough.** The graph of any list of classes has the classes of the list in
their order, with relations to other classes of the list only, and with flags and counts that classes of one name share.
Built from its own classes it is the same graph. -/
theorem build_normalises (l : List ClassInfo) :
    ∃ g, build l = .ok g ∧ NormalisedFrom l g ∧ IsNormal g.classes ∧ build g.classes = .ok g := by
  refine ⟨assemble l, build_eq_ok l, normalisedFrom_assemble l, isNormal_classes l, ?_⟩
  have hnames : nameSet (assemble l).classes = (assemble l).names := by
    rw [nameSet, names_classes]
    rfl
  rw [build_eq_ok, assemble_eq_iff.2 (isNormal_classes l), hnames]

end ClassAtlas.Graph
