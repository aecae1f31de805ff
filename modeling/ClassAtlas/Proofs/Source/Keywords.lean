/-
Keywords are found where a reading of the text word by word finds them.

- `occursIn_words`: a pattern for words in a row, at a word boundary, occurs in a text exactly if they follow one
  another in the reading of the text.
- `isInterface_iff`, `isAbstract_iff`: the declarations of interfaces and abstract classes.
- `keywords_read_by_words`: for every file, what it creates and the kind of its class.
-/
import ClassAtlas.Proofs.Source.LineUses

namespace ClassAtlas.Source

open ClassAtlas.Text ClassAtlas.Text.Pattern

/-! ## Words in a row -/

section

variable {p q : Pattern} {before u after s v w : List Char} {ws : List (List Char)}

/-- the pattern takes the words in a row, up to where no word character follows -/
def SpansRow (p : Pattern) (w : List Char) (ws : List (List Char)) : Prop :=
  ∀ before u after, p.Spans before u after ↔ Row w ws u ∧ after.head?.any isWord = false

theorem spansRow_last (hw : IsRun w) : SpansRow (.all [.text w, .boundary]) w [] := by
  intro before u after
  simp only [spans_all_cons, spans_all_nil, spans_text, spans_boundary, row_nil_iff]
  constructor
  · rintro ⟨v, x, rfl, rfl, y, z, rfl, ⟨hright, rfl⟩, rfl⟩
    exact ⟨by simp, (atBoundary_after_run hw).1 hright⟩
  · rintro ⟨rfl, hright⟩
    exact ⟨u, [], by simp, rfl, [], [], rfl, ⟨(atBoundary_after_run hw).2 hright, rfl⟩, rfl⟩

theorem SpansRow.next (hp : SpansRow p v ws) : SpansRow (.seq (.text w) (.seq .gap1 p)) w (v :: ws) := by
  intro before u after
  simp only [spans_seq, spans_text, spans_gap1, row_cons_iff]
  constructor
  · rintro ⟨x, y, rfl, rfl, g, u, rfl, hg, hu⟩
    obtain ⟨hrow, hright⟩ := (hp _ _ _).1 hu
    exact ⟨⟨g, u, hg, rfl, hrow⟩, hright⟩
  · rintro ⟨⟨g, u, hg, rfl, hrow⟩, hright⟩
    exact ⟨w, g ++ u, rfl, rfl, g, u, rfl, hg, (hp _ _ _).2 ⟨hrow, hright⟩⟩

theorem SpansRow.seq_empty (hp : SpansRow p w ws) : SpansRow (.seq p .empty) w ws := by
  intro before u after
  rw [← hp before, spans_seq]
  constructor
  · rintro ⟨x, y, rfl, hx, rfl⟩
    simpa using hx
  · intro hu
    exact ⟨u, [], by simp, hu, rfl⟩

/-- **Patterns for words in a row.** -/
theorem occursIn_words (hp : SpansRow p w ws) (hws : ∀ v ∈ w :: ws, IsRun v) :
    (Pattern.seq .boundary p).occursIn s = true ↔ InRow s w ws := by
  rw [occursIn_iff, inRow_iff hws]
  have hleft : ∀ {before u after : List Char}, Row w ws u →
      (Cursor.atBoundary ⟨before.reverse, u ++ after⟩ = true ↔ before.getLast?.any isWord = false) := by
    intro before u after hu
    obtain ⟨t, rfl⟩ := hu.exists_append
    rw [List.append_assoc, atBoundary_before_run (hws w List.mem_cons_self), List.head?_reverse]
  simp only [spans_seq, spans_boundary]
  constructor
  · rintro ⟨before, _, after, rfl, _, u, rfl, ⟨hbound, rfl⟩, hu⟩
    obtain ⟨hrow, hright⟩ := (hp _ _ _).1 hu
    exact ⟨before, u, after, ⟨by simp, (hleft hrow).1 hbound, hright⟩, hrow⟩
  · rintro ⟨before, u, after, ⟨rfl, hbound, hright⟩, hrow⟩
    exact ⟨before, u, after, by simp, [], u, rfl, ⟨(hleft hrow).2 hbound, rfl⟩, (hp _ _ _).2 ⟨hrow, hright⟩⟩

end

/-! ## Declarations -/

section

variable {name content keyword : List Char}

theorem spansRow_named (hname : IsRun name) : SpansRow (Declaration.named keyword name) keyword [name] :=
  (spansRow_last hname).next

theorem isInterface_iff (hname : IsRun name) :
    Declaration.isInterface name content = true ↔ InRow content "interface".toList [name] := by
  apply occursIn_words (spansRow_named hname)
  intro v hv
  rcases List.mem_pair.1 hv with rfl | rfl
  · exact isRun_of_all (by decide)
  · exact hname

theorem isAbstract_iff (hname : IsRun name) :
    Declaration.isAbstract name content = true ↔ InRow content "abstract".toList ["class".toList, name] := by
  apply occursIn_words (spansRow_named hname).seq_empty.next
  intro v hv
  rcases List.mem_cons.1 hv with rfl | hv
  · exact isRun_of_all (by decide)
  rcases List.mem_pair.1 hv with rfl | rfl
  · exact isRun_of_all (by decide)
  · exact hname

end

/-! ## A file -/

theorem SourceFile.className_ne_nil (f : SourceFile) : f.className.toList ≠ [] := by
  intro hnil
  have hnamed := f.named
  rw [isBlankName, show Source.className f.path = f.className from rfl, hnil] at hnamed
  cases hnamed

/-- **Keywords are read word by word.** The names a class is read to create are the capitalised identifiers, its own
name aside, that follow the word `new` on some line. If its name is a word, a class is read as an interface if this name
follows the word `interface`, and as abstract if it follows the words `abstract` and `class`. -/
theorem keywords_read_by_words (f : SourceFile) :
    (∀ t, t ∈ f.readClass.compositions ↔ t ≠ f.className ∧ IsIdentifier t.toList ∧
      ∃ line ∈ lines f.content.toList, InRow line "new".toList [t.toList]) ∧
    ((∀ c ∈ f.className.toList, isWord c = true) →
      (f.readClass.isInterface = true ↔ InRow f.content.toList "interface".toList [f.className.toList]) ∧
      (f.readClass.isAbstract = true ↔
        InRow f.content.toList "abstract".toList ["class".toList, f.className.toList])) := by
  constructor
  · intro t
    have hmem : t ∈ f.readClass.compositions ↔ _ := mem_usedNames_iff (f := f) (u := .composition)
    rw [hmem]
    constructor
    · rintro ⟨hown, hn, line, hline, -, hrow⟩
      exact ⟨hown, hn, line, hline, hrow⟩
    · rintro ⟨hown, hn, line, hline, hrow⟩
      exact ⟨hown, hn, line, hline, mem_wordRuns_of_inRow hrow _ (by simp), hrow⟩
  · intro hword
    have hrun : IsRun f.className.toList := ⟨f.className_ne_nil, hword⟩
    exact ⟨isInterface_iff hrun, isAbstract_iff hrun⟩

theorem keywords_read_by_words_cafe :
    let f : SourceFile := ⟨"src/Café.java", "abstract\r\n class Café \x7b new new Tea(); interface Cafés; \x7d",
      by decide +kernel⟩
    "Tea" ∈ f.readClass.compositions ∧ f.readClass.isAbstract = true ∧
      ¬ InRow f.content.toList "interface".toList ["Café".toList] := by
  intro f
  obtain ⟨hcreated, hkind⟩ := keywords_read_by_words f
  have hword : ∀ c ∈ f.className.toList, isWord c = true := List.all_eq_true.1 (by decide +kernel)
  obtain ⟨hinterface, habstract⟩ := hkind hword
  have hspace : IsGap " ".toList := ⟨by decide, List.all_eq_true.1 (by decide)⟩
  have hbreak : IsGap "\r\n ".toList := ⟨by decide, List.all_eq_true.1 (by decide)⟩
  have htea : IsIdentifier "Tea".toList := ⟨'T', "ea".toList, by decide, by decide, List.all_eq_true.1 (by decide)⟩
  refine ⟨?_, ?_, ?_⟩
  · refine (hcreated "Tea").2 ⟨by decide +kernel, htea, " class Café \x7b new new Tea(); interface Cafés; \x7d".toList,
      by decide +kernel, " ".toList, [(" ".toList, "Tea".toList)], by decide +kernel, rfl, ?_⟩
    simpa using hspace
  · refine habstract.2 ⟨[], [("\r\n ".toList, "class".toList), (" ".toList, "Café".toList)], by decide +kernel,
      by decide +kernel, ?_⟩
    intro x hx
    rcases List.mem_pair.1 hx with rfl | rfl
    · exact hbreak
    · exact hspace
  · have hname : f.className.toList = "Café".toList := by decide +kernel
    rw [← hname, ← hinterface]
    decide +kernel

end ClassAtlas.Source
