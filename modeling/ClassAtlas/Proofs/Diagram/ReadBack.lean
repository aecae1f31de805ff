/-
Reading a diagram undoes drawing it.

The writer and the reader of diagrams share no code: the reader divides the whole text into lines, drops the marks, divides
a line at white space and looks the middle word up among the arrows. A declaration may have as many words as an edge, and
a name may look like an arrow, a keyword or a mark. `reads_back`: as long as the class names are words, the reader finds the
lines that were drawn, takes no declaration for an edge, and recovers every edge, so that the histogram counts, for each
source and kind, the targets whose strongest relation is of that kind.
-/
import Mathlib.Data.Set.Card
import ClassAtlas.Proofs.Graph.Relations
import ClassAtlas.Proofs.Text.Words
import ClassAtlas.Report.Histogram

namespace ClassAtlas.Graph

open ClassAtlas.Source ClassAtlas.Collect ClassAtlas.Text ClassAtlas.Report

/-! ## Lines -/

namespace Diagram

theorem append_return_or (s : List Char) : withoutReturn s = s ∨ withoutReturn s ++ ['\r'] = s := by
  unfold withoutReturn
  split
  · rename_i r hr
    have hs : s = r.reverse ++ ['\r'] := by
      rw [← List.reverse_reverse s, hr, List.reverse_cons]
    exact Or.inr hs.symm
  · exact Or.inl rfl

theorem withoutReturn_of_not_mem {s : List Char} (h : '\r' ∉ s) : withoutReturn s = s := by
  rcases append_return_or s with heq | heq
  · exact heq
  · exact absurd (by rw [← heq]; simp) h

theorem splitOnP_of_not_mem {s : List Char} (h : '\n' ∉ s) : s.splitOnP (· == '\n') = [s] := by
  refine List.splitOnP_eq_singleton fun c hc => ?_
  simpa using fun heq : c = '\n' => h (heq ▸ hc)

theorem splitOnP_closed (ls : List (List Char)) {last : List Char} (hlast : '\n' ∉ last) :
    (ls.flatMap (· ++ ['\n']) ++ last).splitOnP (· == '\n') = ls.flatMap (·.splitOnP (· == '\n')) ++ [last] := by
  induction ls with
  | nil => exact splitOnP_of_not_mem hlast
  | cons s ls ih =>
    simp only [List.flatMap_cons, List.append_assoc, List.cons_append, List.nil_append]
    rw [List.splitOnP_append_cons s _ (by decide), ih]

theorem textLines_closed (ls : List (List Char)) {last : List Char} (hlast : '\n' ∉ last) (hne : last ≠ []) :
    textLines (ls.flatMap (· ++ ['\n']) ++ last) =
      (ls.flatMap (·.splitOnP (· == '\n'))).map withoutReturn ++ [last] := by
  unfold textLines
  rw [splitOnP_closed ls hlast]
  simp [hne]

/-- a line as it is read: without the carriage return it may end in -/
def asRead (s : String) : String := String.ofList (withoutReturn s.toList)

theorem space_mem_asRead {s : String} (h : ' ' ∈ s.toList) : ' ' ∈ (asRead s).toList := by
  rw [asRead, String.toList_ofList]
  rcases append_return_or s.toList with heq | heq
  · rw [heq]
    exact h
  · rw [← heq] at h
    simpa using h

/-- a line that the reader leaves as it is: white space in it is made of spaces, and a space tells it from the marks -/
def IsBodyLine (s : String) : Prop := (∀ c ∈ s.toList, isBlank c = true → c = ' ') ∧ ' ' ∈ s.toList

theorem IsBodyLine.not_mem {s : String} (h : IsBodyLine s) {c : Char} (hb : isBlank c = true) (hc : c ≠ ' ') :
    c ∉ s.toList :=
  fun hmem => hc (h.1 c hmem hb)

theorem toList_ofLines (body : List String) :
    (ofLines body).text.toList =
      ((startMark :: body).map String.toList).flatMap (· ++ ['\n']) ++ endMark.toList := by
  have hline : ∀ s : String, (s ++ "\n").toList = s.toList ++ ['\n'] := fun s => by
    rw [String.toList_append]
    rfl
  simp only [ofLines, String.toList_append, String.toList_join, List.flatMap_map, hline, List.map_cons,
    List.flatMap_cons, List.append_assoc]

/-- what is read where a line was drawn: more than one line if it holds line feeds, and none where a mark shows -/
def readLines (s : String) : List String :=
  ((s.toList.splitOnP (· == '\n')).map fun l => String.ofList (withoutReturn l)).filter fun l =>
    l != startMark && l != endMark

/-- each drawn line is read on its own -/
theorem bodyLines_eq_flatMap (body : List String) : (ofLines body).bodyLines = body.flatMap readLines := by
  have hpieces : ∀ ls : List String,
      ((((ls.map String.toList).flatMap (·.splitOnP (· == '\n'))).map withoutReturn).map String.ofList).filter
        (fun l => l != startMark && l != endMark) = ls.flatMap readLines := by
    intro ls
    rw [List.flatMap_map, List.map_map, List.map_flatMap, List.filter_flatMap]
    rfl
  have hstart : readLines startMark = [] := by decide
  rw [bodyLines, toList_ofLines, textLines_closed _ (by decide) (by decide), List.map_append, List.filter_append,
    hpieces, List.flatMap_cons, hstart]
  simp [endMark]

/-- a line that holds no line feed, and a space that tells it from the marks, is read as one line -/
theorem readLines_of_unbroken {s : String} (hfeed : '\n' ∉ s.toList) (hspace : ' ' ∈ s.toList) :
    readLines s = [asRead s] := by
  have hread : ' ' ∈ (asRead s).toList := space_mem_asRead hspace
  have hstart : asRead s ≠ startMark := fun heq => absurd hread (by rw [heq]; decide)
  have hend : asRead s ≠ endMark := fun heq => absurd hread (by rw [heq]; decide)
  rw [readLines, splitOnP_of_not_mem hfeed, List.map_singleton, ← asRead]
  simp [hstart, hend]

theorem bodyLines_ofLines {body : List String} (h : ∀ s ∈ body, IsBodyLine s) : (ofLines body).bodyLines = body := by
  have hread : ∀ s ∈ body, readLines s = [s] := by
    intro s hs
    have hreturn : '\r' ∉ s.toList := (h s hs).not_mem (by decide) (by decide)
    rw [readLines_of_unbroken ((h s hs).not_mem (by decide) (by decide)) (h s hs).2, asRead,
      withoutReturn_of_not_mem hreturn, String.ofList_toList]
  rw [bodyLines_eq_flatMap, List.flatMap_congr hread, List.flatMap_singleton']

end Diagram

/-! ## Declarations and edges as lines -/

theorem toList_line (e : Edge) :
    e.line.toList = e.source.toList ++ ' ' :: (e.kind.arrow.toList ++ ' ' :: e.target.toList) := by
  have hline : e.line = e.source ++ " " ++ e.kind.arrow ++ " " ++ e.target := rfl
  simp [hline, String.toList_append]

theorem toList_declarationLine (c : ClassInfo) :
    (declarationLine c).toList = "interface".toList ++ ' ' :: c.name.toList ∨
      (declarationLine c).toList = "abstract".toList ++ ' ' :: ("class".toList ++ ' ' :: c.name.toList) ∨
      (declarationLine c).toList = "class".toList ++ ' ' :: c.name.toList := by
  unfold declarationLine
  split_ifs
  · left; rw [String.toList_append]; rfl
  · right; left; rw [String.toList_append]; rfl
  · right; right; rw [String.toList_append]; rfl

theorem isWord_arrow (k : RelationKind) : IsWord k.arrow.toList := by cases k <;> decide

/-- two texts whose only white space is spaces, with a space between them -/
theorem blank_eq_space {v w : List Char} (hv : ∀ c ∈ v, isBlank c = true → c = ' ')
    (hw : ∀ c ∈ w, isBlank c = true → c = ' ') : ∀ c ∈ v ++ ' ' :: w, isBlank c = true → c = ' ' := by
  intro c hc hb
  rcases List.mem_append.1 hc with hc | hc
  · exact hv c hc hb
  · rcases List.mem_cons.1 hc with rfl | hc
    · rfl
    · exact hw c hc hb

theorem blank_eq_space_of_isWord {w : List Char} (h : IsWord w) : ∀ c ∈ w, isBlank c = true → c = ' ' :=
  fun _ hc hb => absurd hc (h.not_mem hb)

theorem isBodyLine_line {e : Edge} (hs : IsWord e.source.toList) (ht : IsWord e.target.toList) :
    Diagram.IsBodyLine e.line := by
  rw [Diagram.IsBodyLine, toList_line]
  refine ⟨blank_eq_space (blank_eq_space_of_isWord hs)
    (blank_eq_space (blank_eq_space_of_isWord (isWord_arrow e.kind)) (blank_eq_space_of_isWord ht)), by simp⟩

theorem isBodyLine_declarationLine {c : ClassInfo} (h : IsWord c.name.toList) :
    Diagram.IsBodyLine (declarationLine c) := by
  have hname := blank_eq_space_of_isWord h
  rw [Diagram.IsBodyLine]
  rcases toList_declarationLine c with hline | hline | hline <;> rw [hline]
  · exact ⟨blank_eq_space (blank_eq_space_of_isWord (by decide)) hname, by simp⟩
  · have hclass := blank_eq_space (blank_eq_space_of_isWord (by decide : IsWord "class".toList)) hname
    exact ⟨blank_eq_space (blank_eq_space_of_isWord (by decide)) hclass, by simp⟩
  · exact ⟨blank_eq_space (blank_eq_space_of_isWord (by decide)) hname, by simp⟩

theorem parseEdge?_line {e : Edge} (hs : IsWord e.source.toList) (ht : IsWord e.target.toList) :
    Diagram.parseEdge? e.line = some e := by
  simp only [Diagram.parseEdge?, toList_line, words_triple hs (isWord_arrow e.kind) ht, String.ofList_toList,
    RelationKind.ofArrow?_arrow, Option.map_some]

/-- a declaration has two words, or three of which the middle one is no arrow -/
theorem parseEdge?_declarationLine {c : ClassInfo} (h : IsWord c.name.toList) :
    Diagram.parseEdge? (declarationLine c) = none := by
  unfold Diagram.parseEdge?
  rcases toList_declarationLine c with hline | hline | hline
  · rw [hline, words_pair (by decide) h]
  · rw [hline, words_triple (by decide) (by decide) h]
    have harrow : RelationKind.ofArrow? (String.ofList "class".toList) = none := by decide
    simp only [harrow, Option.map_none]
  · rw [hline, words_pair (by decide) h]

/-! ## The diagram of a built graph -/

theorem isWord_of_mem_classes {l : List ClassInfo} (hl : ∀ c ∈ l, IsWord c.name.toList) {d : ClassInfo}
    (hd : d ∈ (assemble l).classes) : IsWord d.name.toList := by
  obtain ⟨c, hc, hs⟩ := exists_settled hd
  rw [hs.name]
  exact hl c hc

theorem isWord_of_mem_edges {l : List ClassInfo} (hl : ∀ c ∈ l, IsWord c.name.toList) {e : Edge}
    (he : e ∈ (assemble l).edges) : IsWord e.source.toList ∧ IsWord e.target.toList := by
  obtain ⟨-, ⟨b, hb, hsource, -⟩, htarget⟩ := relates_assemble_iff.1 (ClassGraph.mem_edges.1 he).2.1
  obtain ⟨c, hc, htarget⟩ := mem_nameSet.1 htarget
  exact ⟨hsource ▸ hl b hb, htarget ▸ hl c hc⟩

theorem mem_declared_classes {g : ClassGraph} {d : ClassInfo} (hd : d ∈ g.declared) : d ∈ g.classes :=
  (keepFirst_sublist _ _).subset hd

theorem bodyLines_assemble {l : List ClassInfo} (hl : ∀ c ∈ l, IsWord c.name.toList) :
    (Diagram.ofGraph (assemble l)).bodyLines =
      (assemble l).declared.map declarationLine ++ (assemble l).edges.map Edge.line := by
  refine Diagram.bodyLines_ofLines fun s hs => ?_
  rcases List.mem_append.1 hs with hs | hs
  · obtain ⟨d, hd, rfl⟩ := List.mem_map.1 hs
    exact isBodyLine_declarationLine (isWord_of_mem_classes hl (mem_declared_classes hd))
  · obtain ⟨e, he, rfl⟩ := List.mem_map.1 hs
    obtain ⟨hsource, htarget⟩ := isWord_of_mem_edges hl he
    exact isBodyLine_line hsource htarget

/-- the edges read are the edges drawn -/
theorem drawnEdges_assemble {l : List ClassInfo} (hl : ∀ c ∈ l, IsWord c.name.toList) :
    (Diagram.ofGraph (assemble l)).drawnEdges = (assemble l).edges := by
  have hdeclared : ((assemble l).declared.map declarationLine).filterMap Diagram.parseEdge? = [] := by
    refine List.filterMap_eq_nil_iff.2 fun s hs => ?_
    obtain ⟨d, hd, rfl⟩ := List.mem_map.1 hs
    exact parseEdge?_declarationLine (isWord_of_mem_classes hl (mem_declared_classes hd))
  have hedges : ((assemble l).edges.map Edge.line).filterMap Diagram.parseEdge? = (assemble l).edges := by
    rw [List.filterMap_map]
    have hsome : ∀ e ∈ (assemble l).edges, (Diagram.parseEdge? ∘ Edge.line) e = some e := by
      intro e he
      obtain ⟨hsource, htarget⟩ := isWord_of_mem_edges hl he
      exact parseEdge?_line hsource htarget
    rw [List.filterMap_congr hsome, List.filterMap_some]
  rw [Diagram.drawnEdges, bodyLines_assemble hl, List.filterMap_append, hdeclared, hedges, List.nil_append]

/-! ## The histogram -/

theorem encard_of_nodup {α : Type} {m : List α} (hm : m.Nodup) {S : Set α} (hS : ∀ a, a ∈ S ↔ a ∈ m) :
    S.encard = m.length := by
  classical
  have hset : S = (m.toFinset : Set α) := by
    ext a
    simp [hS]
  rw [hset, Set.encard_coe_eq_coe_finsetCard, List.toFinset_card_of_nodup hm]

/-- the edges of a kind from a source are as many as the targets whose strongest relation is of that kind -/
theorem countEdges_assemble (l : List ClassInfo) (s : String) (k : RelationKind) :
    {t | (assemble l).Strongest k s t}.encard = countEdges (assemble l).edges s k := by
  -- the targets of these edges differ, since the pairs do and the source is one
  set drawn := (assemble l).edges.filter fun e => e.source == s && e.kind == k
  have hfrom : ∀ e, e ∈ drawn ↔ e ∈ (assemble l).edges ∧ e.source = s ∧ e.kind = k := by
    intro e
    simp [drawn]
  have hnodup : (drawn.map (·.target)).Nodup := by
    rw [List.nodup_iff_pairwise_ne, List.pairwise_map]
    have hpairs := (assemble l).edges_nodup
    rw [List.nodup_iff_pairwise_ne, List.pairwise_map] at hpairs
    refine (hpairs.filter _).imp_of_mem fun {e f} he hf hne htarget => hne ?_
    rw [((hfrom e).1 he).2.1, ((hfrom f).1 hf).2.1, htarget]
  have hmem : ∀ t, t ∈ {t | (assemble l).Strongest k s t} ↔ t ∈ drawn.map (·.target) := by
    intro t
    rw [List.mem_map, Set.mem_ofPred_eq]
    constructor
    · intro h
      exact ⟨⟨s, k, t⟩, (hfrom _).2 ⟨ClassGraph.mem_edges.2 ⟨(relates_assemble_iff.1 h.1).1, h⟩, rfl, rfl⟩, rfl⟩
    · rintro ⟨e, he, rfl⟩
      obtain ⟨hedge, rfl, rfl⟩ := (hfrom e).1 he
      exact (ClassGraph.mem_edges.1 hedge).2
  rw [encard_of_nodup hnodup hmem, List.length_map]
  rfl

theorem mem_histogram {d : Diagram} {s : String} {row : List (RelationKind × Nat)} :
    (s, row) ∈ histogram d ↔ (∃ e ∈ d.drawnEdges, e.source = s) ∧
      row = (RelationKind.precedence.map fun k => (k, countEdges d.drawnEdges s k)).filter fun x => x.2 != 0 := by
  simp only [histogram, List.mem_map, NameSet.mem_toList, NameSet.mem_ofList, Prod.mk.injEq]
  constructor
  · rintro ⟨s', hs', rfl, rfl⟩
    exact ⟨hs', rfl⟩
  · rintro ⟨hs, rfl⟩
    exact ⟨s, hs, rfl, rfl⟩

theorem exists_edge_of_countEdges {es : List Edge} {s : String} {k : RelationKind} (h : countEdges es s k ≠ 0) :
    ∃ e ∈ es, e.source = s := by
  obtain ⟨e, he⟩ := List.exists_mem_of_length_pos (Nat.pos_of_ne_zero h)
  obtain ⟨hmem, hp⟩ := List.mem_filter.1 he
  simp only [Bool.and_eq_true, beq_iff_eq] at hp
  exact ⟨e, hmem, hp.1⟩

theorem exists_count_iff {d : Diagram} {s : String} {k : RelationKind} {n : Nat} :
    (∃ row, (s, row) ∈ histogram d ∧ (k, n) ∈ row) ↔ n ≠ 0 ∧ countEdges d.drawnEdges s k = n := by
  simp only [mem_histogram]
  constructor
  · rintro ⟨row, ⟨-, rfl⟩, hkn⟩
    obtain ⟨hmap, hne⟩ := List.mem_filter.1 hkn
    obtain ⟨j, -, heq⟩ := List.mem_map.1 hmap
    cases heq
    exact ⟨by simpa using hne, rfl⟩
  · rintro ⟨hne, hcount⟩
    refine ⟨_, ⟨exists_edge_of_countEdges (hcount ▸ hne), rfl⟩, List.mem_filter.2 ⟨?_, by simpa using hne⟩⟩
    exact List.mem_map.2 ⟨k, k.mem_precedence, by rw [hcount]⟩

theorem histogram_sources_pairwise (d : Diagram) : ((histogram d).map Prod.fst).Pairwise (· < ·) := by
  have hkeys : (histogram d).map Prod.fst = (NameSet.ofList (d.drawnEdges.map (·.source))).toList := by
    simp [histogram, Function.comp_def]
  rw [hkeys]
  exact NameSet.ascending _

theorem histogram_row_pairwise {d : Diagram} {s : String} {row : List (RelationKind × Nat)}
    (h : (s, row) ∈ histogram d) : row.Pairwise fun x y => x.1.rank < y.1.rank := by
  obtain ⟨-, rfl⟩ := mem_histogram.1 h
  refine List.Pairwise.filter _ ?_
  rw [List.pairwise_map]
  exact RelationKind.precedence_pairwise

/-! ## Reading back -/

/-- what reading the diagram of a graph gives -/
structure ReadsBack (g : ClassGraph) : Prop where
  /-- the lines between the marks are the lines drawn, in their order -/
  lines : (Diagram.ofGraph g).bodyLines = g.declared.map declarationLine ++ g.edges.map Edge.line
  /-- no declaration reads as an edge -/
  declarations : ∀ d ∈ g.declared, Diagram.parseEdge? (declarationLine d) = none
  /-- every edge reads as itself -/
  edges : ∀ e ∈ g.edges, Diagram.parseEdge? e.line = some e
  /-- the histogram has one entry for each source, ascending, -/
  entries : ((histogram (Diagram.ofGraph g)).map Prod.fst).Pairwise (· < ·)
  /-- none for a name without edges, -/
  sources : ∀ s, (∃ row, (s, row) ∈ histogram (Diagram.ofGraph g)) ↔ ∃ e ∈ g.edges, e.source = s
  /-- each kind at most once in an entry, in the precedence, -/
  kinds : ∀ s row, (s, row) ∈ histogram (Diagram.ofGraph g) → row.Pairwise fun x y => x.1.rank < y.1.rank
  /-- and with it the number of targets whose strongest relation from the source it is, unless that is 0 -/
  counts : ∀ s k n, (∃ row, (s, row) ∈ histogram (Diagram.ofGraph g) ∧ (k, n) ∈ row) ↔
    n ≠ 0 ∧ {t | g.Strongest k s t}.encard = n

/-- **Reading undoes drawing.** For every list of classes whose names are words. -/
theorem reads_back (l : List ClassInfo) (hl : ∀ c ∈ l, IsWord c.name.toList) :
    ∃ g, build l = .ok g ∧ ReadsBack g := by
  refine ⟨assemble l, build_eq_ok l, bodyLines_assemble hl, fun d hd => ?_, fun e he => ?_,
    histogram_sources_pairwise _, fun s => ?_, fun s row => histogram_row_pairwise, fun s k n => ?_⟩
  · exact parseEdge?_declarationLine (isWord_of_mem_classes hl (mem_declared_classes hd))
  · obtain ⟨hsource, htarget⟩ := isWord_of_mem_edges hl he
    exact parseEdge?_line hsource htarget
  · simp only [mem_histogram, drawnEdges_assemble hl, exists_and_left, exists_eq, and_true]
  · rw [exists_count_iff, drawnEdges_assemble hl, countEdges_assemble, Nat.cast_inj]

/-- classes named like an arrow, a keyword and a mark; the strongest relation of a pair sits in a later class -/
def lookAlikes : List ClassInfo :=
  [{ path := "a/-->.java", name := "-->", parent := some "class", dependencies := NameSet.ofList ["@enduml"] },
    { path := "class.java", name := "class", isAbstract := true, compositions := NameSet.ofList ["-->"] },
    { path := "b/-->.java", name := "-->", interfaces := NameSet.ofList ["class"] },
    { path := "@enduml.java", name := "@enduml" }]

theorem reads_back_lookAlikes :
    (∀ c ∈ lookAlikes, IsWord c.name.toList) ∧ ∃ g, build lookAlikes = .ok g ∧ ReadsBack g :=
  ⟨by decide, reads_back lookAlikes (by decide)⟩

end ClassAtlas.Graph
