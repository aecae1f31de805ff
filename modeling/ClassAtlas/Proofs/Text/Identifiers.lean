/-
Capitalised identifiers, as patterns find them.

- `Cursor.Takes`: from one place to another over a text; `Takes.upTo`: that text is what lies between them.
- `identifierAt`: the capitalised identifier that a text starts with, as far as it goes. `typeName_run`: this is what the
  pattern for type names matches there if nothing has to follow, and `capture_typeName`: what it captures.
- `isWord_of_isIdentifier`, `isWord_of_typeNameChars`: no blank is a character of an identifier or of a type name.
- `exists_end_of_run`, `exists_of_seek`: an answer is the continuation's answer at some place.
-/
import Mathlib.Data.List.TakeWhile
import ClassAtlas.Proofs.Text.LineFeeds
import ClassAtlas.Proofs.Text.Words

namespace ClassAtlas.Text

/-- a letter from A to Z, then ASCII letters, digits and `_` -/
def IsIdentifier (s : List Char) : Prop := ∃ x r, s = x :: r ∧ isUpperAscii x = true ∧ ∀ y ∈ r, isIdentChar y = true

/-- the capitalised identifier that a text starts with, as far as it goes -/
def identifierAt : List Char → Option (List Char)
  | [] => none
  | x :: r => if isUpperAscii x then some (x :: r.takeWhile isIdentChar) else none

theorem isIdentifier_of_identifierAt {s u : List Char} (h : identifierAt s = some u) : IsIdentifier u := by
  cases s with
  | nil => cases h
  | cons x r =>
    by_cases hx : isUpperAscii x = true
    · simp only [identifierAt, hx, if_true, Option.some.injEq] at h
      exact ⟨x, r.takeWhile isIdentChar, h.symm, hx, fun y hy => List.mem_takeWhile_imp hy⟩
    · simp [identifierAt, hx] at h

/-! ## Blanks -/

/-- the code points of white space, one by one -/
def blankCodes : List Nat :=
  [9, 10, 11, 12, 13, 0x20, 0x85, 0xA0, 0x1680, 0x2000, 0x2001, 0x2002, 0x2003, 0x2004, 0x2005, 0x2006, 0x2007, 0x2008,
    0x2009, 0x200A, 0x2028, 0x2029, 0x202F, 0x205F, 0x3000]

theorem mem_blankCodes {c : Char} (h : isBlank c = true) : c.toNat ∈ blankCodes := by
  simp only [isBlank, Bool.or_eq_true, Bool.and_eq_true, decide_eq_true_eq, beq_iff_eq] at h
  simp only [blankCodes, List.mem_cons, List.not_mem_nil, or_false]
  omega

/-- a class without any of these holds no white space -/
theorem isBlank_eq_false (ok : Char → Bool) (h : (blankCodes.all fun n => !ok (Char.ofNat n)) = true) {c : Char}
    (hc : ok c = true) : isBlank c = false := by
  by_contra hne
  have hblank : isBlank c = true := by simpa using hne
  have hcode := List.all_eq_true.1 h _ (mem_blankCodes hblank)
  rw [Char.ofNat_toNat, hc] at hcode
  cases hcode

theorem isWord_of_isIdentifier {u : List Char} (h : IsIdentifier u) : IsWord u := by
  obtain ⟨x, r, rfl, hx, hr⟩ := h
  have hident : isIdentChar x = true := by simp [isIdentChar, isLetterAscii, hx]
  refine ⟨List.cons_ne_nil _ _, ?_⟩
  intro c hc
  refine isBlank_eq_false isIdentChar (by decide) ?_
  rcases List.mem_cons.1 hc with rfl | hc
  · exact hident
  · exact hr c hc

theorem isBlank_eq_false_of_isTypeNameChar {c : Char} (h : isTypeNameChar c = true) : isBlank c = false :=
  isBlank_eq_false isTypeNameChar (by decide +kernel) h

theorem isWord_of_typeNameChars {u : List Char} (hne : u ≠ []) (h : u.all isTypeNameChar = true) : IsWord u :=
  ⟨hne, fun c hc => isBlank_eq_false_of_isTypeNameChar (List.all_eq_true.1 h c hc)⟩

namespace Cursor

/-- from one place to another over a text -/
structure Takes (c : Cursor) (u : List Char) (d : Cursor) : Prop where
  after : c.after = u ++ d.after
  before : d.before = u.reverse ++ c.before

theorem Takes.upTo {c d : Cursor} {u : List Char} (h : c.Takes u d) : c.upTo d = u := by
  rw [Cursor.upTo, h.after, List.length_append, Nat.add_sub_cancel, List.take_left]

end Cursor

namespace Pattern

/-! ## Answers -/

section

variable {α : Type}

theorem exists_end_of_run {p : Pattern} {k : Cursor → Option α} {c : Cursor} {a : α} (h : p.run k c = some a) :
    ∃ d ∈ p.ends c, k d = some a := by
  rw [run_eq_findSome] at h
  exact List.exists_of_findSome?_eq_some h

theorem exists_of_seek {attempt : Cursor → Option α} {before after : List Char} {a : α}
    (h : seek attempt before after = some a) : ∃ c, attempt c = some a := by
  rw [seek_eq_run] at h
  obtain ⟨c, -, hc⟩ := exists_end_of_run h
  exact ⟨c, hc⟩

end

/-! ## The pattern for type names -/

/-- a greedy run goes to its farthest end if every end will do -/
theorem manyRun_of_isSome {α : Type} (ok : Char → Bool) {k : Cursor → Option α} (hk : ∀ d, (k d).isSome = true)
    (before after : List Char) :
    manyRun ok k before after = k ⟨(after.takeWhile ok).reverse ++ before, after.dropWhile ok⟩ := by
  induction after generalizing before with
  | nil => rfl
  | cons x r ih =>
    by_cases hx : ok x = true
    · obtain ⟨a, ha⟩ := Option.isSome_iff_exists.1 (hk ⟨(r.takeWhile ok).reverse ++ (x :: before), r.dropWhile ok⟩)
      simp [manyRun, hx, ih, ha]
    · simp [manyRun, hx]

theorem typeName_run (c : Cursor) : typeName.run (fun d => some (c.upTo d)) c = identifierAt c.after := by
  obtain ⟨before, after⟩ := c
  cases after with
  | nil => rfl
  | cons x r =>
    have htakes : Cursor.Takes ⟨before, x :: r⟩ (x :: r.takeWhile isIdentChar)
        ⟨(r.takeWhile isIdentChar).reverse ++ x :: before, r.dropWhile isIdentChar⟩ := by
      constructor
      · simp [List.takeWhile_append_dropWhile]
      · simp
    have hfar := manyRun_of_isSome isIdentChar (k := fun d => some (Cursor.upTo ⟨before, x :: r⟩ d)) (fun _ => rfl)
      (x :: before) r
    simp only [typeName, run, identifierAt, hfar, htakes.upTo]

theorem capture_typeName (lead : Pattern) (s : List Char) :
    lead.capture typeName s = seek (lead.run fun c => identifierAt c.after) [] s := by
  simp only [capture, typeName_run]

end Pattern

end ClassAtlas.Text
