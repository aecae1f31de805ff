/-
The names that a class is read to relate to are words.

File names may hold any character, and so may class names. The names found in the text of a file do not: a parent and the
names used on a line are capitalised identifiers (`mem_usesOn_iff`), interfaces are made of the characters of
type names. `isWord_of_mem_targets`: whatever the file, none of them is empty or holds white space.
-/
import ClassAtlas.Graph.Relation
import ClassAtlas.Proofs.Source.LineUses

namespace ClassAtlas.Source

open ClassAtlas.Text ClassAtlas.Text.Pattern ClassAtlas.Collect ClassAtlas.Graph

theorem isWord_of_mem_namesUsed {own content : List Char} {u : Use} {t : String}
    (h : t ∈ namesUsed ((lines content).flatMap (usesOn own)) u) : IsWord t.toList := by
  simp only [namesUsed, NameSet.mem_ofList, List.mem_map, List.mem_filter, List.mem_flatMap] at h
  obtain ⟨⟨n, v⟩, ⟨⟨line, -, hline⟩, -⟩, rfl⟩ := h
  rw [String.toList_ofList]
  exact isWord_of_isIdentifier (mem_usesOn_iff.1 hline).2.1

theorem isWord_of_parent {name content : List Char} {t : String} (h : Declaration.parent name content = some t) :
    IsWord t.toList := by
  rw [Declaration.parent, capture_typeName, Option.map_eq_some_iff] at h
  obtain ⟨u, hu, rfl⟩ := h
  obtain ⟨c, hc⟩ := exists_of_seek hu
  obtain ⟨d, -, hd⟩ := exists_end_of_run hc
  rw [String.toList_ofList]
  exact isWord_of_isIdentifier (isIdentifier_of_identifierAt hd)

theorem isWord_of_simpleTypeName? {item : List Char} {t : String} (h : simpleTypeName? item = some t) :
    IsWord t.toList := by
  simp only [simpleTypeName?] at h
  split at h
  · rename_i hname
    simp only [Option.some.injEq] at h
    subst h
    simp only [Bool.and_eq_true, Bool.not_eq_true', List.isEmpty_eq_false_iff] at hname
    rw [String.toList_ofList]
    exact isWord_of_typeNameChars hname.1 hname.2
  · cases h

theorem isWord_of_mem_interfaces {name content : List Char} {t : String} (h : t ∈ Declaration.interfaces name content) :
    IsWord t.toList := by
  simp only [Declaration.interfaces] at h
  split at h
  · exact absurd h (NameSet.not_mem_empty t)
  · simp only [typeNames, NameSet.mem_ofList, List.mem_filterMap] at h
    obtain ⟨item, -, hitem⟩ := h
    exact isWord_of_simpleTypeName? hitem

/-- **Names read from a file are words.** -/
theorem isWord_of_mem_targets {f : SourceFile} {k : RelationKind} {t : String} (h : t ∈ targets f.readClass k) :
    IsWord t.toList := by
  cases k with
  | implementation => exact isWord_of_mem_interfaces h
  | inheritance => exact isWord_of_parent (Option.mem_toList.1 h)
  | composition => exact isWord_of_mem_namesUsed h
  | aggregation => exact isWord_of_mem_namesUsed h
  | association => exact isWord_of_mem_namesUsed h
  | dependency => exact isWord_of_mem_namesUsed h

end ClassAtlas.Source
