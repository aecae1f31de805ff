/-
Lists of type names of any nesting are read for their simple names.

- `Passes`: the loop that takes out type arguments, pass by pass, until none are found. `passes_dropTypeArguments`: it ends
  on every text, since a pass that finds some makes the text shorter.
- `Blanked`: a text with a space for each comment; `replaceIn_comment`: this is what the search for comments makes of it,
  whatever the comments hold.
- `Bared`: a text without what stands in angle brackets; `pass_bared`: one pass keeps it, and shortens a text with brackets;
  `dropTypeArguments_bared`: so it is what the loop ends with, at any depth.
- `ListItem`: an item of a list as it is written, with what may stand around it. `type_lists_read`: the names read from the
  written list are those of its items.
-/
import ClassAtlas.Proofs.Text.Preference
import ClassAtlas.Source.TypeList

namespace ClassAtlas.Source

open ClassAtlas.Text ClassAtlas.Text.Pattern ClassAtlas.Collect

/-! ## The loop over type arguments -/

/-- passes that take out type arguments, one after the other until none are found -/
inductive Passes : List Char → List Char → Prop
  | done {s : List Char} : typeArguments.occursIn s = false → Passes s s
  | next {s t : List Char} : typeArguments.occursIn s = true → Passes (typeArguments.replaceAll [] s) t → Passes s t

theorem spans_typeArguments {before u after : List Char} : typeArguments.Spans before u after ↔
    ∃ v, u = '<' :: (v ++ ['>']) ∧ ∀ c ∈ v, c ≠ '<' ∧ c ≠ '>' := by
  simp only [typeArguments, spans_all_cons, spans_all_nil, spans_char, spans_many, beq_iff_eq, Bool.and_eq_true, bne_iff_ne]
  constructor
  · rintro ⟨a, b, rfl, ⟨x, rfl, rfl⟩, v, w, rfl, hv, y, z, rfl, ⟨x', rfl, rfl⟩, rfl⟩
    exact ⟨v, rfl, hv⟩
  · rintro ⟨v, rfl, hv⟩
    exact ⟨['<'], v ++ ['>'], rfl, ⟨'<', rfl, rfl⟩, v, ['>'], rfl, hv, ['>'], [], rfl, ⟨'>', rfl, rfl⟩, rfl⟩

theorem typeArguments_consuming : typeArguments.Consuming := by
  intro c d hd
  obtain ⟨u, htakes, hu⟩ := mem_ends_iff.1 hd
  obtain ⟨v, rfl, -⟩ := spans_typeArguments.1 hu
  rw [htakes.after]
  simp
  omega

/-- **The loop ends.** On every text, and with a text in which no type arguments are found. -/
theorem passes_dropTypeArguments (s : List Char) : Passes s (dropTypeArguments s) := by
  fun_induction dropTypeArguments s with
  | case1 s t hlt ih =>
    refine .next ?_ ih
    by_contra hno
    have hnone : seek (typeArguments.run some) [] s = none := by simpa [occursIn] using hno
    have hself : t = s := replaceIn_eq_self hnone
    rw [hself] at hlt
    exact Nat.lt_irrefl _ hlt
  | case2 s t hle =>
    refine .done ?_
    by_contra hyes
    have hsome : (seek (typeArguments.run some) [] s).isSome = true := by simpa only [occursIn, Bool.not_eq_false] using hyes
    exact hle (length_replaceIn_lt typeArguments_consuming hsome)

/-! ## Comments -/

/-- a text, and the same text with a space for each comment; a line comment goes up to its line break -/
inductive Blanked : List Char → List Char → Prop
  | nil : Blanked [] []
  | char {c : Char} {s t : List Char} : c ≠ '/' → Blanked s t → Blanked (c :: s) (c :: t)
  | block {b s t : List Char} : ¬ ['*', '/'] <:+: b → Blanked s t →
      Blanked ('/' :: '*' :: (b ++ '*' :: '/' :: s)) (' ' :: t)
  | line {b s t : List Char} {x : Char} : (∀ c ∈ b, isLineBreak c = false) → isLineBreak x = true → Blanked s t →
      Blanked ('/' :: '/' :: (b ++ x :: s)) (' ' :: x :: t)

section

variable {before b s t r : List Char} {x : Char}

def lineComment : Pattern := .seq (.text ['/', '/']) (.many fun c => !isLineBreak c)

def blockComment : Pattern := .all [.text ['/', '*'], .few fun _ => true, .text ['*', '/']]

theorem comment_eq : comment = .choice lineComment blockComment := rfl

theorem comment_run_eq_none (hx : x ≠ '/') : comment.run some ⟨before, x :: r⟩ = none := by
  have hbeq : (x == '/') = false := by simpa using hx
  simp [comment_eq, lineComment, blockComment, run, text, hbeq]

/-- no mark inside the comment or across its end closes it before -/
theorem not_close_inside (hb : ¬ ['*', '/'] <:+: b) {v w : List Char} (hsplit : b = v ++ w) (hne : w ≠ []) :
    ¬ ['*', '/'] <+: w ++ (['*', '/'] ++ r) := by
  rintro ⟨rest, hrest⟩
  match w, hne with
  | [y], _ => simp at hrest
  | y :: z :: w, _ =>
    simp only [List.cons_append, List.nil_append, List.cons.injEq] at hrest
    obtain ⟨rfl, rfl, -⟩ := hrest
    exact hb ⟨v, w, by simp [hsplit]⟩

theorem comment_run_block (hb : ¬ ['*', '/'] <:+: b) :
    comment.run some ⟨before, ['/', '*'] ++ (b ++ (['*', '/'] ++ r))⟩ =
      some ⟨['/', '*'] ++ (b.reverse ++ (['*', '/'] ++ before)), r⟩ := by
  have hline : lineComment.run some ⟨before, ['/', '*'] ++ (b ++ (['*', '/'] ++ r))⟩ = none :=
    text_run_eq_none (by simp)
  have hclose : ∀ before, (text ['*', '/']).run some ⟨before, ['*', '/'] ++ r⟩ = some ⟨['/', '*'] ++ before, r⟩ :=
    fun before => text_run ['*', '/']
  calc comment.run some ⟨before, ['/', '*'] ++ (b ++ (['*', '/'] ++ r))⟩
      = blockComment.run some ⟨before, ['/', '*'] ++ (b ++ (['*', '/'] ++ r))⟩ := choice_run_right hline
    _ = (few fun _ => true).run ((text ['*', '/']).run some) ⟨['*', '/'] ++ before, b ++ (['*', '/'] ++ r)⟩ := by
        rw [blockComment, all_run_cons, text_run]
        rfl
    _ = (text ['*', '/']).run some ⟨b.reverse ++ (['*', '/'] ++ before), ['*', '/'] ++ r⟩ := by
        refine few_run_first (fun _ _ => rfl) ?_ ?_
        · intro v w hsplit hne
          exact text_run_eq_none (not_close_inside hb hsplit hne)
        · rw [hclose]
          rfl
    _ = some ⟨['/', '*'] ++ (b.reverse ++ (['*', '/'] ++ before)), r⟩ := hclose _

theorem comment_run_line (hb : ∀ c ∈ b, isLineBreak c = false) (hx : isLineBreak x = true) :
    comment.run some ⟨before, ['/', '/'] ++ (b ++ x :: r)⟩ = some ⟨b.reverse ++ (['/', '/'] ++ before), x :: r⟩ := by
  have hline : lineComment.run some ⟨before, ['/', '/'] ++ (b ++ x :: r)⟩ =
      some ⟨b.reverse ++ (['/', '/'] ++ before), x :: r⟩ := by
    calc lineComment.run some ⟨before, ['/', '/'] ++ (b ++ x :: r)⟩
        = (many fun c => !isLineBreak c).run some ⟨['/', '/'] ++ before, b ++ x :: r⟩ := by
          rw [lineComment, seq_run, text_run]
          rfl
      _ = some ⟨b.reverse ++ (['/', '/'] ++ before), x :: r⟩ := many_run_far (by simpa using hb) (by simp [hx]) rfl
  rw [comment_eq, choice_run_left (by rw [hline]; rfl), hline]

/-- **Comments are blanked.** -/
theorem replaceIn_comment (h : Blanked s t) (before : List Char) : comment.replaceIn [' '] before s = t := by
  induction h generalizing before with
  | nil => simp [replaceIn]
  | char hc _ ih => rw [replaceIn_cons_of_none (comment_run_eq_none hc), ih]
  | @block b s t hb _ ih =>
    have hrun : comment.run some ⟨before, ['/', '*'] ++ (b ++ ['*', '/']) ++ s⟩ =
        some ⟨(['/', '*'] ++ (b ++ ['*', '/'])).reverse ++ before, s⟩ := by
      simpa using comment_run_block hb
    calc comment.replaceIn [' '] before ('/' :: '*' :: (b ++ '*' :: '/' :: s))
        = comment.replaceIn [' '] before (['/', '*'] ++ (b ++ ['*', '/']) ++ s) := by simp
      _ = ' ' :: t := by rw [replaceIn_of_some hrun (by simp), ih]; rfl
  | @line b s t x hb hx _ ih =>
    have hrun : comment.run some ⟨before, ['/', '/'] ++ b ++ x :: s⟩ =
        some ⟨(['/', '/'] ++ b).reverse ++ before, x :: s⟩ := by
      simpa using comment_run_line hb hx
    have hbreak : x ≠ '/' := by
      rintro rfl
      cases hx
    calc comment.replaceIn [' '] before ('/' :: '/' :: (b ++ x :: s))
        = comment.replaceIn [' '] before (['/', '/'] ++ b ++ x :: s) := by simp
      _ = ' ' :: x :: t := by
        rw [replaceIn_of_some hrun (by simp), replaceIn_cons_of_none (comment_run_eq_none hbreak), ih]
        rfl

theorem Blanked.append {s' t' : List Char} (h : Blanked s t) (h' : Blanked s' t') : Blanked (s ++ s') (t ++ t') := by
  induction h with
  | nil => exact h'
  | char hc _ ih => exact .char hc ih
  | block hb _ ih => simpa using Blanked.block hb ih
  | line hb hx _ ih => simpa using Blanked.line hb hx ih

theorem blanked_self (h : '/' ∉ s) : Blanked s s := by
  induction s with
  | nil => exact .nil
  | cons c s ih =>
    simp only [List.mem_cons, not_or] at h
    exact .char (Ne.symm h.1) (ih h.2)

end

/-! ## Type arguments -/

/-- a text whose angle brackets are closed one by one, and the same text without what stands in them -/
inductive Bared : List Char → List Char → Prop
  | nil : Bared [] []
  | char {c : Char} {s t : List Char} : c ≠ '<' ∧ c ≠ '>' → Bared s t → Bared (c :: s) (c :: t)
  | group {u w s t : List Char} : Bared u w → Bared s t → Bared ('<' :: (u ++ '>' :: s)) t

/-- each opening angle bracket is closed by its own -/
def Balanced (s : List Char) : Prop := ∃ t, Bared s t

section

variable {before u w s t r : List Char} {x : Char}

theorem Bared.append {s' t' : List Char} (h : Bared s t) (h' : Bared s' t') : Bared (s ++ s') (t ++ t') := by
  induction h with
  | nil => exact h'
  | char hc _ ih => exact .char hc ih
  | group hu _ _ ih => simpa using Bared.group hu ih

theorem bared_self (h : ∀ c ∈ s, c ≠ '<' ∧ c ≠ '>') : Bared s s := by
  induction s with
  | nil => exact .nil
  | cons c s ih => exact .char (h c List.mem_cons_self) (ih fun d hd => h d (List.mem_cons_of_mem c hd))

/-- the first bracket of such a text opens -/
theorem Bared.first_bracket (h : Bared s t) :
    (s = t ∧ ∀ c ∈ s, c ≠ '<' ∧ c ≠ '>') ∨ ∃ p q, s = p ++ '<' :: q ∧ ∀ c ∈ p, c ≠ '<' ∧ c ≠ '>' := by
  induction h with
  | nil => exact Or.inl ⟨rfl, by simp⟩
  | @char c s t hc _ ih =>
    rcases ih with ⟨rfl, hs⟩ | ⟨p, q, rfl, hp⟩
    · exact Or.inl ⟨rfl, by simpa using ⟨hc, hs⟩⟩
    · exact Or.inr ⟨c :: p, q, rfl, by simpa using ⟨hc, hp⟩⟩
  | @group u w s t _ _ _ _ => exact Or.inr ⟨[], u ++ '>' :: s, rfl, by simp⟩

theorem Bared.outside (h : Bared s t) : ∀ c ∈ t, c ≠ '<' ∧ c ≠ '>' := by
  induction h with
  | nil => simp
  | char hc _ ih => simpa using ⟨hc, ih⟩
  | group _ _ _ ih => exact ih

theorem typeArguments_run_eq_none (h : ∀ v r', x :: r = '<' :: (v ++ '>' :: r') → ¬ ∀ c ∈ v, c ≠ '<' ∧ c ≠ '>') :
    typeArguments.run some ⟨before, x :: r⟩ = none := by
  rw [run_eq_none_iff]
  intro d hd
  obtain ⟨u, htakes, hu⟩ := mem_ends_iff.1 hd
  obtain ⟨v, rfl, hv⟩ := spans_typeArguments.1 hu
  have hafter : x :: r = '<' :: (v ++ '>' :: d.after) := by simpa using htakes.after
  exact absurd hv (h v d.after hafter)

/-- from a bracket on, nothing is found that goes across another opening one -/
theorem typeArguments_run_nested {q : List Char} (hu : ∀ c ∈ u, c ≠ '<' ∧ c ≠ '>') :
    typeArguments.run some ⟨before, '<' :: (u ++ '<' :: q)⟩ = none := by
  apply typeArguments_run_eq_none
  intro v r' heq hv
  have hplain : ∀ {l : List Char}, (∀ c ∈ l, c ≠ '<' ∧ c ≠ '>') → ∀ c ∈ l, (c != '<' && c != '>') = true := by
    intro l hl c hc
    simpa using hl c hc
  obtain ⟨-, hbracket⟩ := append_inj_of_class (hplain hu) (hplain hv) rfl rfl (List.cons.inj heq).2
  exact absurd (List.cons.inj hbracket).1 (by decide)

theorem typeArguments_run_group (hu : ∀ c ∈ u, c ≠ '<' ∧ c ≠ '>') :
    typeArguments.run some ⟨before, '<' :: (u ++ ['>']) ++ r⟩ = some ⟨('<' :: (u ++ ['>'])).reverse ++ before, r⟩ := by
  have hmany : (many fun c => c != '<' && c != '>').run ((char (· == '>')).run some) ⟨'<' :: before, u ++ '>' :: r⟩ =
      (char (· == '>')).run some ⟨u.reverse ++ '<' :: before, '>' :: r⟩ :=
    many_run_far (by simpa using hu) rfl rfl
  calc typeArguments.run some ⟨before, '<' :: (u ++ ['>']) ++ r⟩
      = (many fun c => c != '<' && c != '>').run ((char (· == '>')).run some) ⟨'<' :: before, u ++ '>' :: r⟩ := by
        simp [typeArguments, run]
    _ = some ⟨('<' :: (u ++ ['>'])).reverse ++ before, r⟩ := by
        rw [hmany]
        simp [run]

/-- one pass leaves `s'` of `s`, whatever stands around -/
def PassLeaves (s s' : List Char) : Prop :=
  ∀ before r, typeArguments.replaceIn [] before (s ++ r) = s' ++ typeArguments.replaceIn [] (s.reverse ++ before) r

theorem PassLeaves.char {s' : List Char} (h : PassLeaves s s') (hx : x ≠ '<') : PassLeaves (x :: s) (x :: s') := by
  intro before r
  have hnone : typeArguments.run some ⟨before, x :: (s ++ r)⟩ = none := by
    apply typeArguments_run_eq_none
    intro v r' heq
    exact absurd (List.cons.inj heq).1 hx
  rw [List.cons_append, replaceIn_cons_of_none hnone, h]
  simp

/-- a group that holds no other is taken out -/
theorem PassLeaves.innermost {s' : List Char} (h : PassLeaves s s') (hu : ∀ c ∈ u, c ≠ '<' ∧ c ≠ '>') :
    PassLeaves ('<' :: (u ++ '>' :: s)) s' := by
  intro before r
  have hgroup : typeArguments.run some ⟨before, '<' :: (u ++ ['>']) ++ (s ++ r)⟩ = _ := typeArguments_run_group hu
  calc typeArguments.replaceIn [] before ('<' :: (u ++ '>' :: s) ++ r)
      = typeArguments.replaceIn [] before ('<' :: (u ++ ['>']) ++ (s ++ r)) := by simp
    _ = s' ++ typeArguments.replaceIn [] (('<' :: (u ++ '>' :: s)).reverse ++ before) r := by
      rw [replaceIn_of_some hgroup (by simp), h]
      simp

/-- of a group that holds another, both brackets stay -/
theorem PassLeaves.nested {p q u' s' : List Char} (h : PassLeaves s s') (hp : ∀ c ∈ p, c ≠ '<' ∧ c ≠ '>')
    (hinner : PassLeaves (p ++ '<' :: q) u') :
    PassLeaves ('<' :: (p ++ '<' :: q ++ '>' :: s)) ('<' :: (u' ++ '>' :: s')) := by
  intro before r
  have hopen : typeArguments.run some ⟨before, '<' :: (p ++ '<' :: (q ++ '>' :: (s ++ r)))⟩ = none :=
    typeArguments_run_nested hp
  have hclose : PassLeaves ('>' :: s) ('>' :: s') := h.char (by decide)
  calc typeArguments.replaceIn [] before ('<' :: (p ++ '<' :: q ++ '>' :: s) ++ r)
      = typeArguments.replaceIn [] before ('<' :: (p ++ '<' :: (q ++ '>' :: (s ++ r)))) := by simp
    _ = '<' :: typeArguments.replaceIn [] ('<' :: before) (p ++ '<' :: q ++ ('>' :: s ++ r)) := by
      rw [replaceIn_cons_of_none hopen]
      simp
    _ = '<' :: (u' ++ '>' :: s') ++
        typeArguments.replaceIn [] (('<' :: (p ++ '<' :: q ++ '>' :: s)).reverse ++ before) r := by
      rw [hinner, hclose]
      simp

/-- **One pass.** It keeps what stands outside all brackets, and what is left is shorter unless there were none. -/
theorem pass_bared (h : Bared s t) : ∃ s', Bared s' t ∧ (s'.length < s.length ∨ s' = s ∧ s = t) ∧ PassLeaves s s' := by
  induction h with
  | nil => exact ⟨[], .nil, Or.inr ⟨rfl, rfl⟩, fun _ _ => rfl⟩
  | @char c s t hc _ ih =>
    obtain ⟨s', hbared, hlen, hpass⟩ := ih
    refine ⟨c :: s', .char hc hbared, ?_, hpass.char hc.1⟩
    rcases hlen with hlen | ⟨rfl, rfl⟩
    · exact Or.inl (by simpa using hlen)
    · exact Or.inr ⟨rfl, rfl⟩
  | @group u w s t hu _ ihu ihs =>
    obtain ⟨s', hbared, hlen, hpass⟩ := ihs
    have hshorter : s'.length ≤ s.length := by
      rcases hlen with hlen | ⟨rfl, -⟩
      · exact Nat.le_of_lt hlen
      · exact Nat.le_refl _
    rcases hu.first_bracket with ⟨rfl, hplain⟩ | ⟨p, q, rfl, hp⟩
    · exact ⟨s', hbared, Or.inl (by simp; omega), hpass.innermost hplain⟩
    · obtain ⟨u', hbared', hlen', hpass'⟩ := ihu
      have hstrict : u'.length < (p ++ '<' :: q).length := by
        rcases hlen' with hlen' | ⟨-, rfl⟩
        · exact hlen'
        · exact absurd rfl (hu.outside '<' (by simp)).1
      refine ⟨'<' :: (u' ++ '>' :: s'), .group hbared' hbared, Or.inl ?_, hpass.nested hp hpass'⟩
      simp only [List.length_cons, List.length_append] at hstrict ⊢
      omega

/-- **All passes.** Whatever the depth, what is left is what stands outside all brackets. -/
theorem dropTypeArguments_bared (h : Bared s t) : dropTypeArguments s = t := by
  induction hlen : s.length using Nat.strong_induction_on generalizing s with
  | _ n ih =>
    obtain ⟨s', hbared, hshorter, hpass⟩ := pass_bared h
    have hreplace : typeArguments.replaceAll [] s = s' := by
      have hwhole := hpass [] []
      rw [List.append_nil] at hwhole
      rw [replaceAll, hwhole]
      simp [replaceIn]
    rw [dropTypeArguments, hreplace]
    rcases hshorter with hlt | ⟨rfl, rfl⟩
    · rw [if_pos hlt]
      exact ih s'.length (by omega) hbared rfl
    · exact if_neg (Nat.lt_irrefl _)

end

/-! ## Lists as they are written -/

/-- what may stand around the items of a list: white space, a block comment, or a line comment with its line break -/
inductive Filler where
  | blank (c : Char) (isBlank : isBlank c = true)
  | block (body : List Char) (unclosed : ¬ ['*', '/'] <:+: body)
  | line (body : List Char) (stop : Char) (unbroken : ∀ c ∈ body, isLineBreak c = false) (isStop : isLineBreak stop = true)

namespace Filler

def text : Filler → List Char
  | .blank c _ => [c]
  | .block body _ => '/' :: '*' :: (body ++ ['*', '/'])
  | .line body stop _ _ => '/' :: '/' :: (body ++ [stop])

/-- with a space for a comment -/
def space : Filler → List Char
  | .blank c _ => [c]
  | .block _ _ => [' ']
  | .line _ stop _ _ => [' ', stop]

theorem blanked (f : Filler) : Blanked f.text f.space := by
  cases f with
  | blank c hc =>
    apply blanked_self
    rintro h
    obtain rfl := List.mem_singleton.1 h
    cases hc
  | block body hbody => exact .block hbody .nil
  | line body stop hbody hstop => exact .line hbody hstop .nil

theorem isBlank_of_mem_space {f : Filler} {c : Char} (h : c ∈ f.space) : Text.isBlank c = true := by
  have hbreak : ∀ {x}, isLineBreak x = true → Text.isBlank x = true := by
    intro x hx
    simp only [isLineBreak, Bool.or_eq_true, beq_iff_eq] at hx
    rcases hx with rfl | rfl <;> decide
  cases f with
  | blank x hx => rwa [List.mem_singleton.1 h]
  | block body hbody => rw [List.mem_singleton.1 h]; decide
  | line body stop hbody hstop =>
    rcases List.mem_pair.1 h with rfl | rfl
    · decide
    · exact hbreak hstop

end Filler

/-- a type as a list names it: dotted qualifier, simple name, type arguments nested at will -/
structure ListedType where
  qualifier : List Char
  name : List Char
  arguments : List Char
  dotted : qualifier = [] ∨ ∃ q, qualifier = q ++ ['.'] ∧ ∀ c ∈ q, isTypeNameChar c = true ∨ c = '.'
  named : name ≠ [] ∧ ∀ c ∈ name, isTypeNameChar c = true
  closed : arguments = [] ∨ ∃ u, arguments = '<' :: (u ++ ['>']) ∧ Balanced u ∧ '/' ∉ u

/-- an item of a list, with what stands before and after its type; an empty item names none -/
structure ListItem where
  lead : List Filler
  type : Option ListedType
  trail : List Filler

namespace ListedType

variable (t : ListedType)

def text : List Char := t.qualifier ++ (t.name ++ t.arguments)

def bareText : List Char := t.qualifier ++ t.name

theorem of_mem_bareText {c : Char} (h : c ∈ t.bareText) : isTypeNameChar c = true ∨ c = '.' := by
  rcases List.mem_append.1 h with hq | hn
  · rcases t.dotted with hnil | ⟨q, hdotted, hq'⟩
    · rw [hnil] at hq
      cases hq
    · rw [hdotted, List.mem_append, List.mem_singleton] at hq
      rcases hq with hq | rfl
      · exact hq' c hq
      · exact Or.inr rfl
  · exact Or.inl (t.named.2 c hn)

/-- characters that no bare type has -/
theorem not_mem_bareText {c : Char} (h : (isTypeNameChar c || c == '.') = false) : c ∉ t.bareText := by
  intro hc
  have hor := t.of_mem_bareText hc
  simp only [Bool.or_eq_false_iff, beq_eq_false_iff_ne] at h
  rcases hor with hname | hdot
  · rw [h.1] at hname
    cases hname
  · exact h.2 hdot

theorem bared : Bared t.text t.bareText := by
  have hplain : Bared t.bareText t.bareText := by
    apply bared_self
    intro c hc
    constructor
    · rintro rfl
      exact t.not_mem_bareText (by decide) hc
    · rintro rfl
      exact t.not_mem_bareText (by decide) hc
  have harguments : Bared t.arguments [] := by
    rcases t.closed with hnil | ⟨u, hargs, ⟨w, hu⟩, -⟩
    · rw [hnil]
      exact .nil
    · rw [hargs]
      exact .group hu .nil
  have hboth := hplain.append harguments
  rwa [List.append_nil, bareText, List.append_assoc] at hboth

theorem slash_not_mem_text : '/' ∉ t.text := by
  intro h
  rw [text, ← List.append_assoc] at h
  rcases List.mem_append.1 h with h | h
  · exact t.not_mem_bareText (by decide) h
  · rcases t.closed with hnil | ⟨u, hargs, -, hu⟩
    · rw [hnil] at h
      cases h
    · rw [hargs] at h
      simp [hu] at h

theorem trimmed_bareText : Trimmed t.bareText := by
  have hunblank : ∀ c ∈ t.bareText, isBlank c = false := by
    intro c hc
    rcases t.of_mem_bareText hc with hname | rfl
    · exact isBlank_eq_false_of_isTypeNameChar hname
    · decide
  exact ⟨fun c hc => hunblank c (List.mem_of_head? hc), fun c hc => hunblank c (List.mem_of_getLast? hc)⟩

theorem afterLast_bareText : afterLast (· == '.') t.bareText = t.name := by
  have hname : ∀ c ∈ t.name.reverse, (!(c == '.')) = true := by
    intro c hc
    have hchar := t.named.2 c (List.mem_reverse.1 hc)
    simp only [Bool.not_eq_true', beq_eq_false_iff_ne]
    rintro rfl
    exact absurd hchar (by decide)
  have hstop : t.qualifier.reverse.takeWhile (fun c => !(c == '.')) = [] := by
    rcases t.dotted with hnil | ⟨q, hdotted, -⟩
    · simp [hnil]
    · simp [hdotted]
  rw [afterLast, bareText, List.reverse_append, List.takeWhile_append_of_pos hname, hstop]
  simp

end ListedType

namespace ListItem

variable (i : ListItem)

def text : List Char :=
  i.lead.flatMap Filler.text ++ ((i.type.elim [] ListedType.text) ++ i.trail.flatMap Filler.text)

/-- with a space for each comment -/
def spaced : List Char :=
  i.lead.flatMap Filler.space ++ ((i.type.elim [] ListedType.text) ++ i.trail.flatMap Filler.space)

/-- without type arguments as well -/
def bareText : List Char :=
  i.lead.flatMap Filler.space ++ ((i.type.elim [] ListedType.bareText) ++ i.trail.flatMap Filler.space)

/-- the simple name of the type, if there is one -/
def name? : Option String := i.type.map fun t => String.ofList t.name

theorem blanked_fillers (fs : List Filler) : Blanked (fs.flatMap Filler.text) (fs.flatMap Filler.space) := by
  induction fs with
  | nil => exact .nil
  | cons f fs ih => exact f.blanked.append ih

theorem isBlank_of_mem_fillers {fs : List Filler} {c : Char} (h : c ∈ fs.flatMap Filler.space) : isBlank c = true := by
  obtain ⟨f, -, hf⟩ := List.mem_flatMap.1 h
  exact Filler.isBlank_of_mem_space hf

theorem blanked : Blanked i.text i.spaced := by
  have htype : Blanked (i.type.elim [] ListedType.text) (i.type.elim [] ListedType.text) := by
    apply blanked_self
    cases i.type with
    | none => simp
    | some t => exact t.slash_not_mem_text
  exact (blanked_fillers i.lead).append (htype.append (blanked_fillers i.trail))

theorem bared : Bared i.spaced i.bareText := by
  have hspace : ∀ fs : List Filler, Bared (fs.flatMap Filler.space) (fs.flatMap Filler.space) := by
    intro fs
    apply bared_self
    intro c hc
    have hblank := isBlank_of_mem_fillers hc
    constructor <;> (rintro rfl; cases hblank)
  have htype : Bared (i.type.elim [] ListedType.text) (i.type.elim [] ListedType.bareText) := by
    cases i.type with
    | none => exact .nil
    | some t => exact t.bared
  exact (hspace i.lead).append (htype.append (hspace i.trail))

theorem comma_not_mem_bareText : ',' ∉ i.bareText := by
  have hspace : ∀ fs : List Filler, ',' ∉ fs.flatMap Filler.space := by
    intro fs h
    cases isBlank_of_mem_fillers h
  have htype : ',' ∉ i.type.elim [] ListedType.bareText := by
    cases i.type with
    | none => simp
    | some t => exact t.not_mem_bareText (by decide)
  simp [bareText, hspace, htype]

/-- **An item is read for its simple name.** -/
theorem simpleTypeName?_bareText : simpleTypeName? i.bareText = i.name? := by
  have hblank : ∀ fs : List Filler, ∀ c ∈ fs.flatMap Filler.space, isBlank c = true :=
    fun fs c hc => isBlank_of_mem_fillers hc
  have htrimmed : Trimmed (i.type.elim [] ListedType.bareText) := by
    cases i.type with
    | none => exact ⟨by simp, by simp⟩
    | some t => exact t.trimmed_bareText
  rw [simpleTypeName?, bareText, trim_blanks (hblank _) htrimmed (hblank _), name?]
  cases i.type with
  | none => rfl
  | some t =>
    have hall : t.name.all isTypeNameChar = true := List.all_eq_true.2 t.named.2
    have htrim : trim t.name = t.name :=
      trim_eq_self fun c hc => isBlank_eq_false_of_isTypeNameChar (t.named.2 c hc)
    simp [t.afterLast_bareText, htrim, hall, t.named.1]

end ListItem

/-- a list of types as it is written, commas between the items -/
def listText (items : List ListItem) : List Char := [','].intercalate (items.map ListItem.text)

/-- what holds of two texts piece by piece, commas included, holds of the texts put together -/
theorem intercalate_comma {R : List Char → List Char → Prop} (hnil : R [] []) (hcomma : R [','] [','])
    (happend : ∀ {s t s' t'}, R s t → R s' t' → R (s ++ s') (t ++ t')) {f g : ListItem → List Char}
    (h : ∀ i, R (f i) (g i)) (items : List ListItem) :
    R ([','].intercalate (items.map f)) ([','].intercalate (items.map g)) := by
  induction items with
  | nil => exact hnil
  | cons i items ih =>
    cases items with
    | nil => simpa using h i
    | cons j items =>
      simp only [List.map_cons, List.intercalate_cons_cons] at ih ⊢
      exact happend (happend (h i) hcomma) ih

theorem dropTypeArguments_listText (items : List ListItem) :
    dropTypeArguments (comment.replaceAll [' '] (listText items)) = [','].intercalate (items.map ListItem.bareText) := by
  have hblanked : Blanked (listText items) ([','].intercalate (items.map ListItem.spaced)) :=
    intercalate_comma .nil (blanked_self (by decide)) Blanked.append ListItem.blanked items
  have hbared : Bared ([','].intercalate (items.map ListItem.spaced)) ([','].intercalate (items.map ListItem.bareText)) :=
    intercalate_comma .nil (bared_self (by simp)) Bared.append ListItem.bared items
  rw [replaceAll, replaceIn_comment hblanked, dropTypeArguments_bared hbared]

/-- the names read from a written list, in order -/
theorem filterMap_splitOnP_listText (items : List ListItem) :
    (([','].intercalate (items.map ListItem.bareText)).splitOnP (· == ',')).filterMap simpleTypeName? =
      items.filterMap ListItem.name? := by
  cases items with
  | nil => rfl
  | cons i items =>
    have hsplit : ([','].intercalate ((i :: items).map ListItem.bareText)).splitOn ',' =
        (i :: items).map ListItem.bareText := by
      apply List.splitOn_intercalate
      · intro l hl
        obtain ⟨j, -, rfl⟩ := List.mem_map.1 hl
        exact j.comma_not_mem_bareText
      · simp
    have hnames : simpleTypeName? ∘ ListItem.bareText = ListItem.name? := by
      funext j
      rw [Function.comp_apply, j.simpleTypeName?_bareText]
    rw [List.splitOn] at hsplit
    rw [hsplit, List.filterMap_map, hnames]

theorem of_mem_typeNames {s : List Char} {n : String} (h : n ∈ typeNames s) :
    n.toList ≠ [] ∧ ∀ c ∈ n.toList, isTypeNameChar c = true := by
  rw [typeNames, NameSet.mem_ofList, List.mem_filterMap] at h
  obtain ⟨item, -, hitem⟩ := h
  simp only [simpleTypeName?] at hitem
  split at hitem
  · rename_i hname
    rw [← Option.some.inj hitem, String.toList_ofList]
    simpa using hname
  · cases hitem

/-- **Lists of types.** On every text the loop over type arguments ends, and the names read are not empty and made of
letters, numbers, `_` and `$`. From every list as it is written, with comments and white space around its items and type
arguments nested at will, the names read are exactly the simple names of its items. -/
theorem type_lists_read :
    (∀ s, Passes s (dropTypeArguments s)) ∧
    (∀ s, ∀ n ∈ typeNames s, n.toList ≠ [] ∧ ∀ c ∈ n.toList, isAlphanumeric c = true ∨ c = '_' ∨ c = '$') ∧
    ∀ items : List ListItem, typeNames (listText items) = NameSet.ofList (items.filterMap ListItem.name?) := by
  refine ⟨passes_dropTypeArguments, ?_, ?_⟩
  · intro s n hn
    obtain ⟨hne, hchars⟩ := of_mem_typeNames hn
    refine ⟨hne, ?_⟩
    intro c hc
    simpa [isTypeNameChar, or_assoc] using hchars c hc
  · intro items
    rw [typeNames, dropTypeArguments_listText, filterMap_splitOnP_listText]

/-- two types with an empty item between them, all three with comments -/
def commentedItems : List ListItem :=
  [⟨[.blank ' ' (by decide)],
      some ⟨[], "Map".toList, "<K, Map<V, W>>".toList, Or.inl rfl, ⟨by decide, List.all_eq_true.1 (by decide)⟩,
        Or.inr ⟨"K, Map<V, W>".toList, rfl, ⟨_, (bared_self (s := "K, Map".toList) (by simp)).append
          (.group (bared_self (s := "V, W".toList) (by simp)) .nil)⟩, by decide⟩⟩,
      [.block " or <Set>, see a.b ".toList fun h => absurd (h.subset (by simp)) (by decide : '/' ∉ _)]⟩,
    ⟨[.line " none, > ".toList '\r' (by simp; decide) (by decide)], none, []⟩,
    ⟨[.blank '\n' (by decide)],
      some ⟨"a.b.".toList, "C$1".toList, [], Or.inr ⟨"a.b".toList, rfl, by simp; decide⟩,
        ⟨by decide, List.all_eq_true.1 (by decide)⟩, Or.inl rfl⟩, []⟩]

theorem type_lists_read_commented :
    listText commentedItems = " Map<K, Map<V, W>>/* or <Set>, see a.b */,// none, > \r,\na.b.C$1".toList ∧
    typeNames (listText commentedItems) = NameSet.ofList ["Map", "C$1"] ∧
    ∀ c ∈ "C$1".toList, isAlphanumeric c = true ∨ c = '_' ∨ c = '$' := by
  obtain ⟨-, hchars, hlists⟩ := type_lists_read
  have hnames : typeNames (listText commentedItems) = NameSet.ofList ["Map", "C$1"] := hlists commentedItems
  refine ⟨rfl, hnames, (hchars (listText commentedItems) "C$1" ?_).2⟩
  rw [hnames]
  decide

end ClassAtlas.Source
