/-
First occurrences: of the items with one key, `keepFirst` keeps the first, and keeps the order.

Main statements: the keys that are left are pairwise distinct, no key is lost, and what is left is a sublist. An item is
left exactly when it is the first of its key (`mem_keepFirst`), so in a list in some order it comes before all others of
its key (`eq_or_rel_of_mem_keepFirst`). A choice that depends on the key alone may be made before or after
(`filter_keepFirst`). Of a longer list more is kept, behind what was kept before (`keepFirst_append`).
-/

namespace ClassAtlas.Collect

variable {α β : Type} [BEq β]

/-- keeps, of the items with one key, the first -/
def keepFirst (key : α → β) : List α → List α
  | [] => []
  | a :: l => a :: (keepFirst key l).filter fun b => !(key b == key a)

theorem keepFirst_sublist (key : α → β) (l : List α) : (keepFirst key l).Sublist l := by
  induction l with
  | nil => exact List.Sublist.refl _
  | cons a l ih => exact List.Sublist.cons_cons a ((List.filter_sublist).trans ih)

theorem keepFirst_pairwise [LawfulBEq β] (key : α → β) (l : List α) :
    (keepFirst key l).Pairwise fun a b => key a ≠ key b := by
  induction l with
  | nil => exact List.Pairwise.nil
  | cons a l ih =>
    refine List.Pairwise.cons ?_ (ih.filter _)
    intro b hb
    have h := (List.mem_filter.1 hb).2
    intro heq
    simp [heq] at h

theorem exists_mem_keepFirst [LawfulBEq β] (key : α → β) {l : List α} {a : α} (h : a ∈ l) :
    ∃ b ∈ keepFirst key l, key b = key a := by
  induction l with
  | nil => simp at h
  | cons c l ih =>
    by_cases hc : key c = key a
    · exact ⟨c, by simp [keepFirst], hc⟩
    · rcases List.mem_cons.1 h with rfl | h
      · exact absurd rfl hc
      · obtain ⟨b, hb, hk⟩ := ih h
        refine ⟨b, ?_, hk⟩
        have hbc : key b ≠ key c := fun e => hc (e.symm.trans hk)
        simp [keepFirst, hb, hbc]

theorem mem_keepFirst [LawfulBEq β] {key : α → β} {l : List α} {a : α} :
    a ∈ keepFirst key l ↔ l.find? (fun b => key b == key a) = some a := by
  induction l with
  | nil => simp [keepFirst]
  | cons c l ih =>
    by_cases hc : key c = key a
    · simp [keepFirst, hc, eq_comm]
    · have hac : a ≠ c := fun e => hc (e ▸ rfl)
      have hca : key a ≠ key c := fun e => hc e.symm
      simp [keepFirst, hc, hac, hca, ih]

theorem eq_or_rel_of_mem_keepFirst [LawfulBEq β] {key : α → β} {R : α → α → Prop} {l : List α} (hl : l.Pairwise R)
    {a b : α} (ha : a ∈ keepFirst key l) (hb : b ∈ l) (hk : key b = key a) : b = a ∨ R a b := by
  obtain ⟨-, before, after, rfl, hbefore⟩ := List.find?_eq_some_iff_append.1 (mem_keepFirst.1 ha)
  rcases List.mem_append.1 hb with hb | hb
  · exact absurd hk (by simpa using hbefore b hb)
  · rcases List.mem_cons.1 hb with rfl | hb
    · exact Or.inl rfl
    · exact Or.inr ((List.pairwise_cons.1 (List.pairwise_append.1 hl).2.1).1 b hb)

theorem mem_keepFirst_id [LawfulBEq β] {l : List β} {a : β} : a ∈ keepFirst id l ↔ a ∈ l := by
  refine ⟨fun h => (keepFirst_sublist id l).subset h, fun h => ?_⟩
  obtain ⟨b, hb, rfl⟩ := exists_mem_keepFirst id h
  exact hb

/-- of what is put behind a list, that is kept whose key is new -/
theorem keepFirst_append [LawfulBEq β] (key : α → β) (l m : List α) :
    keepFirst key (l ++ m) = keepFirst key l ++ (keepFirst key m).filter fun a => !l.any fun b => key b == key a := by
  induction l with
  | nil => exact (List.filter_eq_self.2 fun _ _ => rfl).symm
  | cons c l ih => simp [keepFirst, ih, List.filter_filter, BEq.comm]

/-- one more item changes nothing if it is there, and comes last if it is new -/
theorem keepFirst_concat [LawfulBEq β] (l : List β) (a : β) :
    keepFirst id (l ++ [a]) = if (keepFirst id l).contains a then keepFirst id l else keepFirst id l ++ [a] := by
  have hcontains : (keepFirst id l).contains a = true ↔ a ∈ l := List.contains_iff_mem.trans mem_keepFirst_id
  rw [keepFirst_append]
  by_cases ha : a ∈ l
  · rw [if_pos (hcontains.2 ha)]
    simp [keepFirst, ha]
  · have hne : ∀ b ∈ l, b ≠ a := fun b hb heq => ha (heq ▸ hb)
    rw [if_neg (mt hcontains.1 ha)]
    simpa [keepFirst] using hne

theorem keepFirst_map {γ : Type} (key : γ → β) (f : α → γ) (l : List α) :
    keepFirst key (l.map f) = (keepFirst (fun a => key (f a)) l).map f := by
  induction l with
  | nil => rfl
  | cons a l ih => simp [keepFirst, ih, List.filter_map, Function.comp_def]

/-- a choice by key may be made before or after -/
theorem filter_keepFirst [LawfulBEq β] (key : α → β) (ok : β → Bool) (l : List α) :
    (keepFirst key l).filter (fun a => ok (key a)) = keepFirst key (l.filter fun a => ok (key a)) := by
  induction l with
  | nil => rfl
  | cons a l ih =>
    cases ha : ok (key a) with
    | true => simp [keepFirst, ha, ← ih, List.filter_filter, Bool.and_comm]
    | false =>
      -- what has the key of the head is not chosen either
      have hskip : ∀ b ∈ keepFirst key l, (ok (key b) && !(key b == key a)) = ok (key b) := by
        intro b _
        by_cases hb : key b = key a
        · simp [hb, ha]
        · simp [hb]
      simp [keepFirst, ha, ← ih, List.filter_filter, List.filter_congr hskip]

/-- the first item with a property of its key is a first occurrence -/
theorem find?_keepFirst [LawfulBEq β] (key : α → β) (ok : β → Bool) (l : List α) :
    (keepFirst key l).find? (fun a => ok (key a)) = l.find? fun a => ok (key a) := by
  induction l with
  | nil => rfl
  | cons a l ih =>
    cases ha : ok (key a) with
    | true => simp [keepFirst, ha]
    | false =>
      -- what is left out shares its key with the head, which has not the property
      have hsame : (fun b => !(key b == key a) && ok (key b)) = fun b => ok (key b) := by
        funext b
        by_cases hb : key b = key a
        · simp [hb, ha]
        · simp [hb]
      simp [keepFirst, ha, List.find?_filter, hsame, ih]

/-- in a list with distinct keys each item is the first of its key -/
theorem find?_of_nodup [LawfulBEq β] {key : α → β} {l : List α} {a : α} (hl : (l.map key).Nodup) (ha : a ∈ l) :
    l.find? (fun b => key b == key a) = some a := by
  induction l with
  | nil => cases ha
  | cons c l ih =>
    obtain ⟨hc, hl⟩ := List.nodup_cons.1 hl
    rcases List.mem_cons.1 ha with rfl | ha
    · simp
    · have hne : key c ≠ key a := fun heq => hc (heq ▸ List.mem_map_of_mem ha)
      rw [List.find?_cons_of_neg (by simpa using hne)]
      exact ih hl ha

/-- first occurrences stand in the order in which they first occur -/
theorem keepFirst_pairwise_idxOf [LawfulBEq β] (l : List β) :
    (keepFirst (fun a => a) l).Pairwise fun a b => l.idxOf a < l.idxOf b := by
  induction l with
  | nil => exact List.Pairwise.nil
  | cons c l ih =>
    -- behind the head everything differs from it, so each position is one more than in the tail
    have later : ∀ b ∈ (keepFirst (fun a => a) l).filter fun b => !(b == c), (c :: l).idxOf b = l.idxOf b + 1 := by
      intro b hb
      have hbc : b ≠ c := by simpa using (List.mem_filter.1 hb).2
      have hcb : (c == b) = false := by simpa using Ne.symm hbc
      simp [List.idxOf_cons, hcb]
    refine List.Pairwise.cons ?_ ?_
    · intro b hb
      rw [later b hb]
      simp
    · refine (ih.filter _).imp_of_mem ?_
      intro a b ha hb hab
      rw [later a ha, later b hb]
      exact Nat.succ_lt_succ hab

end ClassAtlas.Collect
