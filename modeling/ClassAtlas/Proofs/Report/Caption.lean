/-
What the caption of a diagram counts.

The caption does not count classes and relations. It reads the lines of the diagram back and counts those that read as an
edge and those that do not. A class is named after its file, and a file name may hold white space, so a line need not read
as what it was drawn for:

- a declaration reads as an edge if its keyword is one word and the name is an arrow and another word (`ReadsAsEdge`);
- an edge does not read as one if the name of its source is not one word. Targets are names found in a source text, which
  are words.

A name with a line feed in it is even drawn on several lines, each of which is read on its own.

`caption_counts`: for all files, the counts are those of the lines read. As long as no class name holds a line feed, the two
misreadings above are all that tells the counts from the numbers of distinct class names and of related pairs, and there
are none if each class name is one word. `caption_miscounts_spaced`: a class name of two words makes both counts wrong.
-/
import ClassAtlas.Proofs.Analysis
import ClassAtlas.Proofs.Diagram.ReadBack
import ClassAtlas.Proofs.Source.ReadNames
import ClassAtlas.Report.Caption

namespace ClassAtlas.Report

open ClassAtlas.Source ClassAtlas.Text ClassAtlas.Graph

/-! ## Lines as they read -/

theorem words_asRead (s : String) : words (Diagram.asRead s).toList = words s.toList := by
  rw [Diagram.asRead, String.toList_ofList]
  rcases Diagram.append_return_or s.toList with heq | heq
  · rw [heq]
  · have hsplit := words_append_blank (b := '\r') (by decide) (Diagram.withoutReturn s.toList) []
    rw [heq] at hsplit
    rw [hsplit]
    exact (List.append_nil _).symm

theorem parseEdge?_asRead (s : String) : Diagram.parseEdge? (Diagram.asRead s) = Diagram.parseEdge? s := by
  unfold Diagram.parseEdge?
  rw [words_asRead]

theorem parseEdge?_isSome_iff {line : String} :
    (Diagram.parseEdge? line).isSome = true ↔
      ∃ (s : List Char) (k : RelationKind) (t : List Char), words line.toList = [s, k.arrow.toList, t] := by
  unfold Diagram.parseEdge?
  constructor
  · intro h
    split at h
    · rename_i s arrow t hwords
      rw [Option.isSome_map, Option.isSome_iff_exists] at h
      obtain ⟨k, hk⟩ := h
      refine ⟨s, k, t, ?_⟩
      rw [hwords, RelationKind.arrow_of_ofArrow? hk, String.toList_ofList]
    · cases h
  · intro ⟨s, k, t, hwords⟩
    rw [hwords]
    simp [RelationKind.ofArrow?_arrow]

/-- a declaration that reads as an edge: one keyword, then a name made of an arrow and another word -/
def ReadsAsEdge (d : ClassInfo) : Prop :=
  (d.isInterface = true ∨ d.isAbstract = false) ∧
    ∃ (k : RelationKind) (w : List Char), words d.name.toList = [k.arrow.toList, w]

theorem words_declarationLine (d : ClassInfo) :
    words (declarationLine d).toList =
      if d.isInterface then "interface".toList :: words d.name.toList
      else if d.isAbstract then "abstract".toList :: "class".toList :: words d.name.toList
      else "class".toList :: words d.name.toList := by
  have hone : ∀ keyword : List Char, IsWord keyword → ∀ t, words (keyword ++ ' ' :: t) = keyword :: words t := by
    intro keyword hkeyword t
    rw [words_append_blank (by decide), words_of_isWord hkeyword]
    rfl
  unfold declarationLine
  split_ifs
  · rw [String.toList_append]
    exact hone "interface".toList (by decide) d.name.toList
  · rw [String.toList_append, ← hone "class".toList (by decide) d.name.toList]
    exact hone "abstract".toList (by decide) ("class".toList ++ ' ' :: d.name.toList)
  · rw [String.toList_append]
    exact hone "class".toList (by decide) d.name.toList

theorem declaration_reads_iff {d : ClassInfo} :
    (Diagram.parseEdge? (declarationLine d)).isSome = true ↔ ReadsAsEdge d := by
  have hone : ∀ keyword : List Char,
      (∃ (s : List Char) (k : RelationKind) (t : List Char), keyword :: words d.name.toList = [s, k.arrow.toList, t]) ↔
        ∃ (k : RelationKind) (w : List Char), words d.name.toList = [k.arrow.toList, w] := by
    intro keyword
    constructor
    · intro ⟨s, k, t, h⟩
      exact ⟨k, t, (List.cons.inj h).2⟩
    · intro ⟨k, w, h⟩
      exact ⟨keyword, k, w, by rw [h]⟩
  rw [parseEdge?_isSome_iff, words_declarationLine, ReadsAsEdge]
  by_cases hinterface : d.isInterface = true
  · simp only [hinterface, if_true, true_or, true_and]
    exact hone _
  · by_cases habstract : d.isAbstract = true
    · -- the second keyword would have to be the arrow
      simp only [hinterface, habstract, Bool.false_eq_true, if_false, if_true, Bool.true_eq_false, or_self, false_and,
        iff_false]
      intro ⟨s, k, t, h⟩
      have harrow : "class".toList = k.arrow.toList := (List.cons.inj (List.cons.inj h).2).1
      cases k <;> exact absurd harrow (by decide)
    · simp only [hinterface, habstract, Bool.false_eq_true, if_false, or_true, true_and]
      exact hone _

theorem edge_reads_iff {e : Edge} (ht : IsWord e.target.toList) :
    (Diagram.parseEdge? e.line).isSome = true ↔ (words e.source.toList).length = 1 := by
  have hwords : words e.line.toList = words e.source.toList ++ [e.kind.arrow.toList, e.target.toList] := by
    rw [toList_line, words_append_blank (by decide), words_pair (isWord_arrow e.kind) ht]
  rw [parseEdge?_isSome_iff, hwords, List.length_eq_one_iff]
  constructor
  · intro ⟨s, k, t, heq⟩
    have hlength := congrArg List.length heq
    simp only [List.length_append, List.length_cons, List.length_nil] at hlength
    exact List.length_eq_one_iff.1 (by omega)
  · intro ⟨s, hs⟩
    exact ⟨s, e.kind, e.target.toList, by rw [hs]; rfl⟩

/-! ## Counts -/

/-- the caption counts what is read where each line was drawn -/
theorem counts_eq_countP (body : List String) :
    (classLines (Diagram.ofLines body)).length =
        (body.flatMap Diagram.readLines).countP (fun s => (Diagram.parseEdge? s).isNone) ∧
      (Diagram.ofLines body).drawnEdges.length =
        (body.flatMap Diagram.readLines).countP fun s => (Diagram.parseEdge? s).isSome := by
  constructor
  · rw [classLines, Diagram.bodyLines_eq_flatMap, List.countP_eq_length_filter]
  · rw [Diagram.drawnEdges, Diagram.bodyLines_eq_flatMap, List.length_filterMap_eq_countP]

/-- lines that are read as one line each count as they were drawn -/
theorem countP_readLines {body : List String} (hfeed : ∀ s ∈ body, '\n' ∉ s.toList)
    (hspace : ∀ s ∈ body, ' ' ∈ s.toList) (p : Option Edge → Bool) :
    (body.flatMap Diagram.readLines).countP (fun s => p (Diagram.parseEdge? s)) =
      body.countP fun s => p (Diagram.parseEdge? s) := by
  have hread : ∀ s ∈ body, Diagram.readLines s = [Diagram.asRead s] := by
    intro s hs
    exact Diagram.readLines_of_unbroken (hfeed s hs) (hspace s hs)
  rw [List.flatMap_congr hread, ← List.map_eq_flatMap, List.countP_map]
  simp only [Function.comp_def, parseEdge?_asRead]

/-- the class names of some files -/
def classNames (files : List SourceFile) : Set String := {n | ∃ f ∈ files, f.className = n}

/-- the ordered pairs of different names that a graph relates -/
def relatedPairs (g : ClassGraph) : Set (String × String) := {p | p.1 ≠ p.2 ∧ ∃ k, g.Relates k p.1 p.2}

/-- the names whose declaration reads as an edge -/
def misreadNames (g : ClassGraph) : Set String := {n | ∃ d ∈ g.declared, d.name = n ∧ ReadsAsEdge d}

/-- the related pairs whose edge does not read as one -/
def misreadPairs (g : ClassGraph) : Set (String × String) := {p | p ∈ relatedPairs g ∧ (words p.1.toList).length ≠ 1}

theorem encard_classNames (files : List SourceFile) :
    (classNames files).encard = (assemble (readClasses files)).declared.length := by
  have hmem : ∀ n, n ∈ classNames files ↔ n ∈ (assemble (readClasses files)).declared.map (·.name) := by
    intro n
    rw [mem_declared_names_assemble, mem_nameSet]
    simp only [classNames, Set.mem_ofPred_eq, readClasses, List.mem_map, exists_exists_and_eq_and]
    rfl
  rw [encard_of_nodup (ClassGraph.declared_names_nodup _) hmem, List.length_map]

theorem mem_relatedPairs {g : ClassGraph} {p : String × String} :
    p ∈ relatedPairs g ↔ ∃ e ∈ g.edges, (e.source, e.target) = p := by
  obtain ⟨s, t⟩ := p
  simp only [Prod.mk.injEq]
  exact (g.exists_edge_iff s t).symm

theorem encard_relatedPairs (g : ClassGraph) : (relatedPairs g).encard = g.edges.length := by
  have hmem : ∀ p, p ∈ relatedPairs g ↔ p ∈ g.edges.map fun e => (e.source, e.target) := by
    intro p
    rw [mem_relatedPairs, List.mem_map]
  rw [encard_of_nodup g.edges_nodup hmem, List.length_map]

/-- as many as the items that pass, if their keys are all different -/
theorem encard_eq_countP {α β : Type} {l : List α} {key : α → β} (hl : (l.map key).Nodup) {p : α → Bool} {S : Set β}
    (hS : ∀ b, b ∈ S ↔ ∃ a ∈ l, p a = true ∧ key a = b) : S.encard = l.countP p := by
  have hnodup : ((l.filter p).map key).Nodup := hl.sublist (List.filter_sublist.map key)
  have hmem : ∀ b, b ∈ S ↔ b ∈ (l.filter p).map key := by
    intro b
    simp only [hS, List.mem_map, List.mem_filter, and_assoc]
  rw [encard_of_nodup hnodup hmem, List.length_map, List.countP_eq_length_filter]

theorem encard_misreadNames (g : ClassGraph) :
    (misreadNames g).encard = g.declared.countP fun d => (Diagram.parseEdge? (declarationLine d)).isSome := by
  refine encard_eq_countP g.declared_names_nodup fun n => ?_
  simp only [misreadNames, Set.mem_ofPred_eq, declaration_reads_iff, and_comm]

theorem encard_misreadPairs {g : ClassGraph} (htargets : ∀ e ∈ g.edges, IsWord e.target.toList) :
    (misreadPairs g).encard = g.edges.countP fun e => (Diagram.parseEdge? e.line).isNone := by
  have hreads : ∀ e ∈ g.edges, (Diagram.parseEdge? e.line).isNone = true ↔ (words e.source.toList).length ≠ 1 := by
    intro e he
    rw [Option.isNone_iff_eq_none, ← Option.not_isSome_iff_eq_none, ne_eq, edge_reads_iff (htargets e he)]
  refine encard_eq_countP g.edges_nodup fun p => ?_
  rw [misreadPairs, Set.mem_ofPred_eq, mem_relatedPairs]
  constructor
  · intro ⟨⟨e, he, heq⟩, hlength⟩
    subst heq
    exact ⟨e, he, (hreads e he).2 hlength, rfl⟩
  · intro ⟨e, he, hnone, heq⟩
    subst heq
    exact ⟨⟨e, he, rfl⟩, (hreads e he).1 hnone⟩

/-! ## The caption -/

theorem feed_not_mem_declarationLine {d : ClassInfo} (h : '\n' ∉ d.name.toList) : '\n' ∉ (declarationLine d).toList := by
  rcases toList_declarationLine d with hline | hline | hline <;> rw [hline] <;> simp [h]

theorem space_mem_declarationLine (d : ClassInfo) : ' ' ∈ (declarationLine d).toList := by
  rcases toList_declarationLine d with hline | hline | hline <;> rw [hline] <;> simp

theorem feed_not_mem_line {e : Edge} (hs : '\n' ∉ e.source.toList) (ht : IsWord e.target.toList) :
    '\n' ∉ e.line.toList := by
  have harrow : '\n' ∉ e.kind.arrow.toList := (isWord_arrow e.kind).not_mem (by decide)
  have htarget : '\n' ∉ e.target.toList := ht.not_mem (by decide)
  simp [toList_line, hs, harrow, htarget]

section

variable {files : List SourceFile}

/-- the target of an edge is a name that was found in the text of a file -/
theorem isWord_target {e : Edge} (he : e ∈ (assemble (readClasses files)).edges) : IsWord e.target.toList := by
  obtain ⟨-, ⟨c, hc, -, ht⟩, -⟩ := relates_assemble_iff.1 (ClassGraph.mem_edges.1 he).2.1
  obtain ⟨f, -, rfl⟩ := List.mem_map.1 hc
  exact isWord_of_mem_targets ht

theorem exists_className_of_mem_nameSet {n : String} (hn : n ∈ nameSet (readClasses files)) :
    ∃ f ∈ files, f.className = n := by
  obtain ⟨c, hc, rfl⟩ := mem_nameSet.1 hn
  obtain ⟨f, hf, rfl⟩ := List.mem_map.1 hc
  exact ⟨f, hf, rfl⟩

theorem exists_className_of_mem_declared {d : ClassInfo} (hd : d ∈ (assemble (readClasses files)).declared) :
    ∃ f ∈ files, f.className = d.name :=
  exists_className_of_mem_nameSet (mem_declared_names_assemble.1 (List.mem_map_of_mem hd))

theorem exists_className_of_mem_edges {e : Edge} (he : e ∈ (assemble (readClasses files)).edges) :
    ∃ f ∈ files, f.className = e.source :=
  exists_className_of_mem_nameSet (mem_nameSet_of_relates (ClassGraph.mem_edges.1 he).2.1).1

/-- the lines drawn for a graph -/
def drawnLines (g : ClassGraph) : List String := g.declared.map declarationLine ++ g.edges.map Edge.line

theorem feed_not_mem_drawnLines (hfeed : ∀ f ∈ files, '\n' ∉ f.className.toList) :
    ∀ s ∈ drawnLines (assemble (readClasses files)), '\n' ∉ s.toList := by
  intro s hs
  rcases List.mem_append.1 hs with hs | hs
  · obtain ⟨d, hd, rfl⟩ := List.mem_map.1 hs
    obtain ⟨f, hf, hname⟩ := exists_className_of_mem_declared hd
    exact feed_not_mem_declarationLine (hname ▸ hfeed f hf)
  · obtain ⟨e, he, rfl⟩ := List.mem_map.1 hs
    obtain ⟨f, hf, hname⟩ := exists_className_of_mem_edges he
    exact feed_not_mem_line (hname ▸ hfeed f hf) (isWord_target he)

theorem space_mem_drawnLines (g : ClassGraph) : ∀ s ∈ drawnLines g, ' ' ∈ s.toList := by
  intro s hs
  rcases List.mem_append.1 hs with hs | hs
  · obtain ⟨d, -, rfl⟩ := List.mem_map.1 hs
    exact space_mem_declarationLine d
  · obtain ⟨e, -, rfl⟩ := List.mem_map.1 hs
    rw [toList_line]
    simp

theorem countP_isNone_add_countP_isSome {α β : Type} (f : α → Option β) (l : List α) :
    l.countP (fun a => (f a).isNone) + l.countP (fun a => (f a).isSome) = l.length := by
  have hsome : (fun a => decide ¬(f a).isNone = true) = fun a => (f a).isSome := by
    funext a
    cases f a <;> rfl
  rw [List.length_eq_countP_add_countP (fun a => (f a).isNone) (l := l), hsome]

/-- the lines drawn for the files, counted by how they read: what is not an edge, with the declarations that read as one,
makes up the declarations and the edges that do not -/
theorem countP_drawnLines (files : List SourceFile) :
    let g := assemble (readClasses files)
    (((drawnLines g).countP (fun s => (Diagram.parseEdge? s).isNone) : ℕ∞) + (misreadNames g).encard =
        (classNames files).encard + (misreadPairs g).encard) ∧
      ((drawnLines g).countP (fun s => (Diagram.parseEdge? s).isSome) : ℕ∞) + (misreadPairs g).encard =
        (relatedPairs g).encard + (misreadNames g).encard := by
  intro g
  have hdeclared := countP_isNone_add_countP_isSome (fun d => Diagram.parseEdge? (declarationLine d)) g.declared
  have hedges := countP_isNone_add_countP_isSome (fun e => Diagram.parseEdge? e.line) g.edges
  have hsplit : ∀ p : Option Edge → Bool, (drawnLines g).countP (fun s => p (Diagram.parseEdge? s)) =
      g.declared.countP (fun d => p (Diagram.parseEdge? (declarationLine d))) +
        g.edges.countP fun e => p (Diagram.parseEdge? e.line) := by
    intro p
    rw [drawnLines, List.countP_append, List.countP_map, List.countP_map]
    rfl
  have htargets : ∀ e ∈ g.edges, IsWord e.target.toList := fun e he => isWord_target he
  rw [encard_misreadNames, encard_misreadPairs htargets, encard_classNames, encard_relatedPairs, hsplit (·.isNone),
    hsplit (·.isSome), ← hdeclared, ← hedges]
  norm_cast
  constructor <;> omega

/-- as long as no class name holds a line feed, the counts differ from the numbers they stand for by what is misread -/
theorem counts_of_unbroken (hfeed : ∀ f ∈ files, '\n' ∉ f.className.toList) :
    let g := assemble (readClasses files)
    (((classLines (Diagram.ofGraph g)).length : ℕ∞) + (misreadNames g).encard =
        (classNames files).encard + (misreadPairs g).encard) ∧
      ((Diagram.ofGraph g).drawnEdges.length : ℕ∞) + (misreadPairs g).encard =
        (relatedPairs g).encard + (misreadNames g).encard := by
  intro g
  have hread : ∀ p : Option Edge → Bool,
      ((drawnLines g).flatMap Diagram.readLines).countP (fun s => p (Diagram.parseEdge? s)) =
        (drawnLines g).countP fun s => p (Diagram.parseEdge? s) :=
    countP_readLines (feed_not_mem_drawnLines hfeed) (space_mem_drawnLines g)
  obtain ⟨hplain, hedges⟩ := counts_eq_countP (drawnLines g)
  rw [Diagram.ofGraph, ← drawnLines, hplain, hedges, hread (·.isNone), hread (·.isSome)]
  exact countP_drawnLines files

theorem misreadNames_eq_empty (hone : ∀ f ∈ files, (words f.className.toList).length = 1) :
    misreadNames (assemble (readClasses files)) = ∅ := by
  refine Set.eq_empty_of_forall_notMem fun n hn => ?_
  obtain ⟨d, hd, -, -, k, w, hreads⟩ := hn
  obtain ⟨f, hf, hname⟩ := exists_className_of_mem_declared hd
  have hlength := hone f hf
  rw [hname, hreads] at hlength
  cases hlength

theorem misreadPairs_eq_empty (hone : ∀ f ∈ files, (words f.className.toList).length = 1) :
    misreadPairs (assemble (readClasses files)) = ∅ := by
  refine Set.eq_empty_of_forall_notMem fun p hp => ?_
  obtain ⟨⟨-, k, hrelates⟩, hlength⟩ := hp
  obtain ⟨f, hf, hname⟩ := exists_className_of_mem_nameSet (mem_nameSet_of_relates hrelates).1
  exact hlength (hname ▸ hone f hf)

end

/-- what the counts of a caption are -/
structure CaptionCounts (files : List SourceFile) (g : ClassGraph) (classes relations : Nat) : Prop where
  /-- each drawn line is read on its own: what reads as no edge counts as a class, -/
  plain : classes = ((drawnLines g).flatMap Diagram.readLines).countP fun s => (Diagram.parseEdge? s).isNone
  /-- and what reads as an edge as a relation -/
  edges : relations = ((drawnLines g).flatMap Diagram.readLines).countP fun s => (Diagram.parseEdge? s).isSome
  /-- if no name holds a line feed, the classes are the names, but for the declarations and edges that are misread, -/
  names : (∀ f ∈ files, '\n' ∉ f.className.toList) →
    classes + (misreadNames g).encard = (classNames files).encard + (misreadPairs g).encard
  /-- and the relations are the related pairs, but for the same -/
  pairs : (∀ f ∈ files, '\n' ∉ f.className.toList) →
    relations + (misreadPairs g).encard = (relatedPairs g).encard + (misreadNames g).encard
  /-- if each name is one word, nothing is misread -/
  oneWord : (∀ f ∈ files, '\n' ∉ f.className.toList ∧ (words f.className.toList).length = 1) →
    classes = (classNames files).encard ∧ relations = (relatedPairs g).encard

/-- **What the caption of a diagram counts.** For all files. -/
theorem caption_counts (files : List SourceFile) :
    ∃ (g : ClassGraph) (a : Analysis) (classes relations : Nat),
      build (readClasses files) = .ok g ∧ Analysis.ofFiles files = .ok a ∧
        caption a .uml = "Classes: " ++ toString classes ++ " | Relations: " ++ toString relations ∧
          CaptionCounts files g classes relations := by
  obtain ⟨hplain, hedges⟩ := counts_eq_countP (drawnLines (assemble (readClasses files)))
  refine ⟨_, _, _, _, build_eq_ok _, ofFiles_eq_ok files, rfl, hplain, hedges,
    fun hfeed => (counts_of_unbroken hfeed).1, fun hfeed => (counts_of_unbroken hfeed).2, fun hwords => ?_⟩
  have hone : ∀ f ∈ files, (words f.className.toList).length = 1 := fun f hf => (hwords f hf).2
  have hcounts := counts_of_unbroken fun f hf => (hwords f hf).1
  simpa only [misreadNames_eq_empty hone, misreadPairs_eq_empty hone, Set.encard_empty, add_zero] using hcounts

/-- a copy that a file manager named -/
def spacedFiles : List SourceFile :=
  [⟨"src/Main copy.java", "class Main \x7b B b; \x7d", by decide⟩, ⟨"src/B.java", "class B \x7b\x7d", by decide⟩]

/-- two names and one related pair, whose edge has four words and counts as a third class -/
theorem caption_miscounts_spaced :
    ∃ (g : ClassGraph) (a : Analysis), build (readClasses spacedFiles) = .ok g ∧
      Analysis.ofFiles spacedFiles = .ok a ∧ (classNames spacedFiles).encard = 2 ∧ (relatedPairs g).encard = 1 ∧
        caption a .uml = "Classes: 3 | Relations: 0" := by
  have hnames : (assemble (readClasses spacedFiles)).declared.length = 2 := by decide +kernel
  have hpairs : (assemble (readClasses spacedFiles)).edges.length = 1 := by decide +kernel
  refine ⟨_, _, build_eq_ok _, ofFiles_eq_ok _, ?_, ?_, ?_⟩
  · rw [encard_classNames, hnames]
    rfl
  · rw [encard_relatedPairs, hpairs]
    rfl
  · decide +kernel

/-- a name with a line feed in it is declared on two lines -/
example : (classLines (Diagram.ofLines ["class A\nB"])).length = 2 := by decide +kernel

end ClassAtlas.Report
