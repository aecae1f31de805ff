/-
Fields and signatures are recognised in any context.

What else stands on the line, further occurrences of the same name included, can only make the use of a name stronger.

- `head?_fieldTail`: what follows the type of a field starts with no word character, so the type stands alone.
- `usedAs_of_holds`: the type of a field is held, or created if the line creates it.
- `usedAs_of_takesOrGives`: a return type, a constructor's name or the type of a first parameter is taken, unless the
  line holds or creates it.
- `members_recognised`: both for every line of every file.
-/
import ClassAtlas.Proofs.Source.LineUses

namespace ClassAtlas.Source

open ClassAtlas.Text

/-! ## The type of a field stands alone -/

section

variable {line before tail after n : List Char}

theorem head?_arguments {a : List Char} (ha : IsArguments a) : a.head?.any isWord = false := by
  obtain ⟨g, t, rfl, hg, -⟩ := ha
  have hgap : g.head?.any isWord = false := head?_any_of_forall fun c hc => isWord_eq_false_of_isBlank (hg c hc)
  exact head?_any_append hgap rfl

theorem head?_fieldTail (h : FieldTail tail) : tail.head?.any isWord = false := by
  obtain ⟨a, b, x, v, g, y, rest, rfl, ha, hb, hx, -⟩ := h
  have hbrackets : b.head?.any isWord = false := by
    apply head?_any_of_forall
    intro c hc
    rcases hb c hc with rfl | rfl | rfl | hblank
    · rfl
    · rfl
    · rfl
    · exact isWord_eq_false_of_isBlank hblank
  have hrest : (b ++ x :: (v ++ (g ++ y :: rest))).head?.any isWord = false :=
    head?_any_append hbrackets (isWord_eq_false_of_isBlank hx)
  rcases ha with rfl | ha
  · exact hrest
  · exact head?_any_append (head?_arguments ha) hrest

theorem standsAlone_of_field (hline : line = before ++ (n ++ tail)) (hleft : before.getLast?.any isWord = false)
    (htail : FieldTail tail) : StandsAlone line before n tail :=
  ⟨hline, hleft, head?_fieldTail htail⟩

/-! ## What a shape shows -/

theorem usedAs_of_holds (h : Holds line n) :
    (Creates line n → UsedAs line n .composition) ∧ (¬ Creates line n → UsedAs line n .aggregation) :=
  ⟨fun hcreates => hcreates, fun hno => ⟨hno, h⟩⟩

/-- a stronger use of the name elsewhere on the line wins -/
theorem usedAs_of_takesOrGives (h : TakesOrGives line n) :
    UsedAs line n .composition ∨ UsedAs line n .aggregation ∨ UsedAs line n .dependency := by
  by_cases hcreates : Creates line n
  · exact Or.inl hcreates
  · by_cases hholds : Holds line n
    · exact Or.inr (Or.inl ⟨hcreates, hholds⟩)
    · exact Or.inr (Or.inr ⟨hcreates, hholds, h⟩)

end

section

variable {f : SourceFile} {line before after : List Char} {t : String}

/-- a name that stands on a line is read as the line uses it -/
theorem mem_usedNames_of_standsAlone (hline : line ∈ lines f.content.toList) (ht : IsIdentifier t.toList)
    (hown : t ≠ f.className) (halone : StandsAlone line before t.toList after) {u : Use}
    (hu : UsedAs line t.toList u) : t ∈ f.readClass.usedNames u := by
  have hmem : t.toList ∈ wordRuns line := mem_wordRuns_iff.2 ⟨isRun_of_isIdentifier ht, before, after, halone⟩
  exact mem_usedNames_iff.2 ⟨hown, ht, line, hline, hmem, hu⟩

end

/-- **Fields and signatures.** On every line of a file, and for every capitalised identifier but the class's own name:
where the name stands as the type of a field, the class is read to create it if the line does, and else to hold it; where
it stands as a return type, a constructor's name or the type of a first parameter, the class is read to create, hold or
take it. -/
theorem members_recognised (f : SourceFile) (line : List Char) (hline : line ∈ lines f.content.toList) (t : String)
    (ht : IsIdentifier t.toList) (hown : t ≠ f.className) :
    (∀ before tail, line = before ++ (t.toList ++ tail) → before.getLast?.any isWord = false → FieldTail tail →
      (Creates line t.toList → t ∈ f.readClass.compositions) ∧
      (¬ Creates line t.toList → t ∈ f.readClass.aggregations)) ∧
    ∀ before after, StandsAlone line before t.toList after → SignatureTail after ∨ OpensBefore before →
      t ∈ f.readClass.compositions ∨ t ∈ f.readClass.aggregations ∨ t ∈ f.readClass.dependencies := by
  have hread : ∀ {before after}, StandsAlone line before t.toList after → ∀ u, UsedAs line t.toList u →
      t ∈ f.readClass.usedNames u := fun halone u hu => mem_usedNames_of_standsAlone hline ht hown halone hu
  constructor
  · intro before tail htext hleft htail
    have halone := standsAlone_of_field htext hleft htail
    obtain ⟨hcreated, hheld⟩ := usedAs_of_holds ⟨before, tail, halone, htail⟩
    exact ⟨fun hcreates => hread halone .composition (hcreated hcreates),
      fun hno => hread halone .aggregation (hheld hno)⟩
  · intro before after halone hshape
    rcases usedAs_of_takesOrGives ⟨before, after, halone, hshape⟩ with hu | hu | hu
    · exact Or.inl (hread halone .composition hu)
    · exact Or.inr (Or.inl (hread halone .aggregation hu))
    · exact Or.inr (Or.inr (hread halone .dependency hu))

theorem members_recognised_shop :
    let line := " Map <K, V>[]> m\t= f(Item x); Map.of()".toList
    let f : SourceFile := ⟨"src/Shop.java", "class Shop \x7b\r\n Map <K, V>[]> m\t= f(Item x); Map.of()\r\x7d", by decide⟩
    line ∈ lines f.content.toList ∧ "Map" ∈ f.readClass.aggregations ∧
      ("Item" ∈ f.readClass.compositions ∨ "Item" ∈ f.readClass.aggregations ∨ "Item" ∈ f.readClass.dependencies) := by
  intro line f
  have hline : line ∈ lines f.content.toList := by decide +kernel
  have hmap : IsIdentifier "Map".toList := ⟨'M', "ap".toList, by decide, by decide, List.all_eq_true.1 (by decide)⟩
  have hitem : IsIdentifier "Item".toList :=
    ⟨'I', "tem".toList, by decide, by decide, List.all_eq_true.1 (by decide)⟩
  have hcreates : ¬ Creates line "Map".toList := by
    intro h
    have hcreated : "Map".toList ∈ createdOn line := mem_createdOn_iff.2 ⟨hmap, h⟩
    exact absurd hcreated (by decide +kernel)
  have hfield : FieldTail " <K, V>[]> m\t= f(Item x); Map.of()".toList := by
    rw [← startsText_fieldTail]
    decide +kernel
  refine ⟨hline, ?_, ?_⟩
  · have hshape := (members_recognised f line hline "Map" hmap (by decide +kernel)).1 [' '] _ rfl (by decide) hfield
    exact hshape.2 hcreates
  · refine (members_recognised f line hline "Item" hitem (by decide +kernel)).2 " Map <K, V>[]> m\t= f(".toList
      " x); Map.of()".toList ⟨by decide +kernel, by decide +kernel, by decide +kernel⟩ (Or.inr ?_)
    exact ⟨" Map <K, V>[]> m\t= f".toList, [], by decide +kernel, by simp⟩

end ClassAtlas.Source
