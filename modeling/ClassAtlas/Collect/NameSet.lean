/-
Finite sets of names, held as their members in ascending order of code points.

The order is part of the type, so two sets with the same members are equal (`NameSet.ext`) and the list of members is
the order in which reports name them. Each operation has one lemma that says what it does to membership.
-/

namespace ClassAtlas.Collect

/-- a set of names: its members, ascending -/
structure NameSet where
  toList : List String
  ascending : toList.Pairwise (· < ·)
deriving DecidableEq

namespace NameSet

instance : Membership String NameSet := ⟨fun s a => a ∈ s.toList⟩

instance (a : String) (s : NameSet) : Decidable (a ∈ s) := inferInstanceAs (Decidable (a ∈ s.toList))

instance : EmptyCollection NameSet := ⟨⟨[], List.Pairwise.nil⟩⟩

instance : Inhabited NameSet := ⟨∅⟩

theorem mem_toList {a : String} {s : NameSet} : a ∈ s.toList ↔ a ∈ s := Iff.rfl

@[simp] theorem not_mem_empty (a : String) : a ∉ (∅ : NameSet) := List.not_mem_nil

/-- puts a name in its place in an ascending list; a name already there is not put twice -/
def insertSorted (a : String) : List String → List String
  | [] => [a]
  | b :: l => if a < b then a :: b :: l else if a = b then b :: l else b :: insertSorted a l

theorem mem_insertSorted {a b : String} {l : List String} : b ∈ insertSorted a l ↔ b = a ∨ b ∈ l := by
  induction l with
  | nil => simp [insertSorted]
  | cons c l ih =>
    simp only [insertSorted]
    split
    · simp
    · split
      · rename_i h; subst h; simp
      · simp only [List.mem_cons, ih]
        exact ⟨fun h => by rcases h with h | h | h <;> simp [h], fun h => by rcases h with h | h | h <;> simp [h]⟩

theorem lt_of_not_lt_of_ne {a b : String} (h : ¬ a < b) (hne : a ≠ b) : b < a := by
  rcases Std.lt_trichotomy a b with h' | h' | h'
  · exact absurd h' h
  · exact absurd h' hne
  · exact h'

theorem pairwise_insertSorted (a : String) {l : List String} (h : l.Pairwise (· < ·)) :
    (insertSorted a l).Pairwise (· < ·) := by
  induction l with
  | nil => simp [insertSorted]
  | cons c l ih =>
    have hc := List.pairwise_cons.1 h
    simp only [insertSorted]
    split
    · rename_i hlt
      refine List.Pairwise.cons ?_ h
      intro b hb
      rcases List.mem_cons.1 hb with rfl | hb
      · exact hlt
      · exact String.lt_trans hlt (hc.1 b hb)
    · split
      · exact h
      · rename_i hlt hne
        refine List.Pairwise.cons ?_ (ih hc.2)
        intro b hb
        rcases mem_insertSorted.1 hb with rfl | hb
        · exact lt_of_not_lt_of_ne hlt hne
        · exact hc.1 b hb

def insert (s : NameSet) (a : String) : NameSet :=
  ⟨insertSorted a s.toList, pairwise_insertSorted a s.ascending⟩

@[simp] theorem mem_insert {a b : String} {s : NameSet} : b ∈ s.insert a ↔ b = a ∨ b ∈ s := mem_insertSorted

/-- the set of the names of a list -/
def ofList (l : List String) : NameSet := l.foldl insert ∅

theorem mem_foldl_insert {a : String} (l : List String) (s : NameSet) : a ∈ l.foldl insert s ↔ a ∈ s ∨ a ∈ l := by
  induction l generalizing s with
  | nil => simp
  | cons b l ih =>
    simp only [List.foldl_cons, ih, mem_insert, List.mem_cons]
    exact ⟨fun h => by rcases h with (h | h) | h <;> simp [h], fun h => by rcases h with h | h | h <;> simp [h]⟩

@[simp] theorem mem_ofList {a : String} {l : List String} : a ∈ ofList l ↔ a ∈ l := by
  simp [ofList, mem_foldl_insert]

/-- the members that pass a test -/
def filter (s : NameSet) (p : String → Bool) : NameSet := ⟨s.toList.filter p, s.ascending.filter p⟩

@[simp] theorem mem_filter {a : String} {s : NameSet} {p : String → Bool} : a ∈ s.filter p ↔ a ∈ s ∧ p a = true :=
  List.mem_filter

def size (s : NameSet) : Nat := s.toList.length

theorem nodup (s : NameSet) : s.toList.Nodup := by
  refine s.ascending.imp ?_
  rintro a b hlt rfl
  exact String.lt_irrefl a hlt

theorem size_le_length {s : NameSet} {l : List String} (h : ∀ a ∈ s, a ∈ l) : s.size ≤ l.length :=
  s.nodup.length_le_of_subset h

/-- a set is as large as any list of its members without repetition -/
theorem size_eq_length {s : NameSet} {l : List String} (hl : l.Nodup) (h : ∀ a, a ∈ s ↔ a ∈ l) :
    s.size = l.length :=
  Nat.le_antisymm (size_le_length fun a ha => (h a).1 ha) (hl.length_le_of_subset fun a ha => (h a).2 ha)

theorem size_lt_size {s t : NameSet} {a : String} (hsub : ∀ b ∈ s, b ∈ t) (ha : a ∈ t) (hna : a ∉ s) :
    s.size < t.size := by
  have hnodup : (a :: s.toList).Nodup := List.nodup_cons.2 ⟨hna, s.nodup⟩
  refine hnodup.length_le_of_subset fun b hb => ?_
  rcases List.mem_cons.1 hb with rfl | hb
  · exact ha
  · exact hsub b hb

/-- two ascending lists with the same members are equal -/
theorem eq_of_pairwise_of_mem_iff {l m : List String} (hl : l.Pairwise (· < ·)) (hm : m.Pairwise (· < ·))
    (h : ∀ a, a ∈ l ↔ a ∈ m) : l = m := by
  induction l generalizing m with
  | nil =>
    cases m with
    | nil => rfl
    | cons b m => exact absurd ((h b).2 List.mem_cons_self) List.not_mem_nil
  | cons a l ih =>
    cases m with
    | nil => exact absurd ((h a).1 List.mem_cons_self) List.not_mem_nil
    | cons b m =>
      have ha := List.pairwise_cons.1 hl
      have hb := List.pairwise_cons.1 hm
      have hab : a = b := by
        rcases List.mem_cons.1 ((h a).1 List.mem_cons_self) with e | ham
        · exact e
        · rcases List.mem_cons.1 ((h b).2 List.mem_cons_self) with e | hbl
          · exact e.symm
          · exact absurd (String.lt_trans (ha.1 b hbl) (hb.1 a ham)) (String.lt_irrefl a)
      subst hab
      refine congrArg (a :: ·) (ih ha.2 hb.2 fun c => ⟨fun hc => ?_, fun hc => ?_⟩)
      · rcases List.mem_cons.1 ((h c).1 (List.mem_cons_of_mem a hc)) with e | hcm
        · exact absurd (e ▸ ha.1 c hc) (String.lt_irrefl a)
        · exact hcm
      · rcases List.mem_cons.1 ((h c).2 (List.mem_cons_of_mem a hc)) with e | hcl
        · exact absurd (e ▸ hb.1 c hc) (String.lt_irrefl a)
        · exact hcl

/-- **Sets are their members.** -/
theorem ext {s t : NameSet} (h : ∀ a, a ∈ s ↔ a ∈ t) : s = t := by
  obtain ⟨l, hl⟩ := s
  obtain ⟨m, hm⟩ := t
  have : l = m := eq_of_pairwise_of_mem_iff hl hm h
  subst this
  rfl

end NameSet

end ClassAtlas.Collect
