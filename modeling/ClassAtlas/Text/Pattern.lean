/-
Text patterns with ordered choice, and the search for their leftmost match.

A `Cursor` is a place in a text. A pattern leads from one cursor to others: `Pattern.ends` lists them in order of
preference (a greedy run prefers to go far, a reluctant one to stop early, a choice its first branch). `Pattern.run`
finds the first of them from which a continuation succeeds, without building the list; `run_eq_findSome` says that the
two agree. A match of a pattern in a text is the most preferred one at the leftmost place that has one.

Runs repeat a class of characters, not a pattern: no pattern here needs more.
-/
import ClassAtlas.Text.Blank
import ClassAtlas.Text.Word

namespace ClassAtlas.Text

/-- a place in a text: what stands before it, nearest character first, and what follows -/
structure Cursor where
  before : List Char
  after : List Char
deriving DecidableEq, Repr

namespace Cursor

/-- the start of a text -/
def start (s : List Char) : Cursor := ⟨[], s⟩

/-- a word character on one side only -/
def atBoundary (c : Cursor) : Bool :=
  c.before.head?.any isWord != c.after.head?.any isWord

/-- the text from one cursor to a later one -/
def upTo (c d : Cursor) : List Char :=
  c.after.take (c.after.length - d.after.length)

end Cursor

/-- a pattern; `many` and `few` are runs of a class, the first greedy and the second reluctant -/
inductive Pattern where
  | empty
  | char (ok : Char → Bool)
  | many (ok : Char → Bool)
  | few (ok : Char → Bool)
  | boundary
  | seq (p q : Pattern)
  | choice (p q : Pattern)
  | optional (p : Pattern)

namespace Pattern

/-! ## The places a pattern leads to -/

/-- ends of a greedy run, the farthest first -/
def manyEnds (ok : Char → Bool) (before : List Char) : List Char → List Cursor
  | [] => [⟨before, []⟩]
  | x :: r => if ok x then manyEnds ok (x :: before) r ++ [⟨before, x :: r⟩] else [⟨before, x :: r⟩]

/-- ends of a reluctant run, the nearest first -/
def fewEnds (ok : Char → Bool) (before : List Char) : List Char → List Cursor
  | [] => [⟨before, []⟩]
  | x :: r => ⟨before, x :: r⟩ :: if ok x then fewEnds ok (x :: before) r else []

/-- where matches that start at the cursor end, the preferred one first -/
def ends : Pattern → Cursor → List Cursor
  | .empty, c => [c]
  | .char ok, c =>
    match c.after with
    | [] => []
    | x :: r => if ok x then [⟨x :: c.before, r⟩] else []
  | .many ok, c => manyEnds ok c.before c.after
  | .few ok, c => fewEnds ok c.before c.after
  | .boundary, c => if c.atBoundary then [c] else []
  | .seq p q, c => (p.ends c).flatMap q.ends
  | .choice p q, c => p.ends c ++ q.ends c
  | .optional p, c => p.ends c ++ [c]

/-! ## The first place from which a continuation succeeds -/

/-- greedy run followed by a continuation -/
def manyRun {α : Type} (ok : Char → Bool) (k : Cursor → Option α) (before : List Char) : List Char → Option α
  | [] => k ⟨before, []⟩
  | x :: r =>
    if ok x then
      match manyRun ok k (x :: before) r with
      | some a => some a
      | none => k ⟨before, x :: r⟩
    else k ⟨before, x :: r⟩

/-- reluctant run followed by a continuation -/
def fewRun {α : Type} (ok : Char → Bool) (k : Cursor → Option α) (before : List Char) : List Char → Option α
  | [] => k ⟨before, []⟩
  | x :: r =>
    match k ⟨before, x :: r⟩ with
    | some a => some a
    | none => if ok x then fewRun ok k (x :: before) r else none

/-- the pattern followed by a continuation, with backtracking -/
def run {α : Type} : Pattern → (Cursor → Option α) → Cursor → Option α
  | .empty, k, c => k c
  | .char ok, k, c =>
    match c.after with
    | [] => none
    | x :: r => if ok x then k ⟨x :: c.before, r⟩ else none
  | .many ok, k, c => manyRun ok k c.before c.after
  | .few ok, k, c => fewRun ok k c.before c.after
  | .boundary, k, c => if c.atBoundary then k c else none
  | .seq p q, k, c => p.run (q.run k) c
  | .choice p q, k, c =>
    match p.run k c with
    | some a => some a
    | none => q.run k c
  | .optional p, k, c =>
    match p.run k c with
    | some a => some a
    | none => k c

theorem manyRun_eq_findSome {α : Type} (ok : Char → Bool) (k : Cursor → Option α) (before after : List Char) :
    manyRun ok k before after = (manyEnds ok before after).findSome? k := by
  induction after generalizing before with
  | nil => simp [manyRun, manyEnds]
  | cons x r ih =>
    by_cases h : ok x
    · simp only [manyRun, manyEnds, h, if_true, ih, List.findSome?_append]
      cases (manyEnds ok (x :: before) r).findSome? k <;> simp
    · simp [manyRun, manyEnds, h]

theorem fewRun_eq_findSome {α : Type} (ok : Char → Bool) (k : Cursor → Option α) (before after : List Char) :
    fewRun ok k before after = (fewEnds ok before after).findSome? k := by
  induction after generalizing before with
  | nil => simp [fewRun, fewEnds]
  | cons x r ih =>
    simp only [fewRun, fewEnds, List.findSome?_cons]
    cases k ⟨before, x :: r⟩ with
    | some a => rfl
    | none => by_cases h : ok x <;> simp [h, ih]

theorem findSome_flatMap {α β γ : Type} (f : α → List β) (k : β → Option γ) (l : List α) :
    (l.flatMap f).findSome? k = l.findSome? fun a => (f a).findSome? k := by
  induction l with
  | nil => rfl
  | cons a l ih =>
    simp only [List.flatMap_cons, List.findSome?_append, List.findSome?_cons, ih]
    cases (f a).findSome? k <;> simp

/-- **Backtracking finds the preferred end.** Running a pattern gives the continuation's answer at the first of the
pattern's ends that has one. -/
theorem run_eq_findSome {α : Type} (p : Pattern) (k : Cursor → Option α) (c : Cursor) :
    p.run k c = (p.ends c).findSome? k := by
  induction p generalizing k c with
  | empty => simp [run, ends]
  | char ok =>
    simp only [run, ends]
    cases c.after with
    | nil => rfl
    | cons x r => by_cases h : ok x <;> simp [h]
  | many ok => exact manyRun_eq_findSome ok k _ _
  | few ok => exact fewRun_eq_findSome ok k _ _
  | boundary => by_cases h : c.atBoundary <;> simp [run, ends, h]
  | seq p q hp hq =>
    simp only [run, ends, hp, findSome_flatMap]
    exact congrArg (fun f => (p.ends c).findSome? f) (funext fun d => hq k d)
  | choice p q hp hq =>
    simp only [run, ends, hp, hq, List.findSome?_append]
    cases (p.ends c).findSome? k <;> simp
  | optional p hp =>
    simp only [run, ends, hp, List.findSome?_append]
    cases (p.ends c).findSome? k <;> simp

/-! ## Building blocks -/

/-- the text itself -/
def text : List Char → Pattern
  | [] => .empty
  | c :: s => .seq (.char (· == c)) (text s)

/-- patterns one after the other -/
def all : List Pattern → Pattern
  | [] => .empty
  | p :: ps => .seq p (all ps)

/-- one or more characters of a class, as many as possible -/
def some1 (ok : Char → Bool) : Pattern := .seq (.char ok) (.many ok)

/-- any white space -/
def gap : Pattern := .many isBlank

/-- some white space -/
def gap1 : Pattern := some1 isBlank

/-- a capitalised identifier -/
def typeName : Pattern := .seq (.char isUpperAscii) (.many isIdentChar)

/-- the name of a field or method -/
def memberName : Pattern := .seq (.char isMemberStart) (.many isMemberChar)

/-! ## Search -/

/-- the first answer of an attempt, trying each place from left to right, the end of the text included -/
def seek {α : Type} (attempt : Cursor → Option α) (before : List Char) : List Char → Option α
  | [] => attempt ⟨before, []⟩
  | x :: r =>
    match attempt ⟨before, x :: r⟩ with
    | some a => some a
    | none => seek attempt (x :: before) r

/-- whether the pattern occurs anywhere in the text -/
def occursIn (p : Pattern) (s : List Char) : Bool :=
  (seek (p.run some) [] s).isSome

/-- whether the pattern matches at the start of the text -/
def startsText (p : Pattern) (s : List Char) : Bool :=
  (p.run some (Cursor.start s)).isSome

/-- what `group` matches in the leftmost match of `lead` followed by `group` -/
def capture (lead group : Pattern) (s : List Char) : Option (List Char) :=
  seek (lead.run fun c => group.run (fun d => some (c.upTo d)) c) [] s

/-- the answers of an attempt at successive places that do not overlap, from left to right: an answer comes with the
cursor where its match ends, and the search goes on there; only matches that take a character count -/
def scan {α : Type} (attempt : Cursor → Option (α × Cursor)) (before after : List Char) : List α :=
  match after with
  | [] => []
  | x :: r =>
    match attempt ⟨before, x :: r⟩ with
    | none => scan attempt (x :: before) r
    | some (a, stop) =>
      if stop.after.length ≤ r.length then a :: scan attempt stop.before stop.after
      else scan attempt (x :: before) r
termination_by after.length
decreasing_by all_goals (simp_wf; try omega)

/-- the matches of a pattern that do not overlap, leftmost first, as start and end -/
def matchesIn (p : Pattern) (s : List Char) : List (Cursor × Cursor) :=
  scan (fun c => p.run (fun d => some ((c, d), d)) c) [] s

/-- what `group` matches in each match of `lead`, `group` and `tail`; the tail takes no character -/
def captures (lead group tail : Pattern) (s : List Char) : List (List Char) :=
  scan (fun c => lead.run (fun d => group.run (fun e => tail.run (fun f => some (d.upTo e, f)) e) d) c) [] s

/-- the text with every match of the pattern replaced -/
def replaceIn (p : Pattern) (new : List Char) (before after : List Char) : List Char :=
  match after with
  | [] => []
  | x :: r =>
    match p.run some ⟨before, x :: r⟩ with
    | none => x :: replaceIn p new (x :: before) r
    | some stop =>
      if stop.after.length ≤ r.length then new ++ replaceIn p new stop.before stop.after
      else x :: replaceIn p new (x :: before) r
termination_by after.length
decreasing_by all_goals (simp_wf; try omega)

def replaceAll (p : Pattern) (new s : List Char) : List Char := replaceIn p new [] s

end Pattern

end ClassAtlas.Text
