/-
Encoded texts and what they decode to.

- `percentDecode_percentEncode`: percent encoding that does not keep the percent sign is undone by decoding; the bytes that
  come back are those of the text, and they determine it (`encode_injective`).
- `of_mem_percentEncode`: what an encoded text is made of.
- `eq_dots_of_plainDots`: a text of dots, plain or encoded, is the encoding of these dots only, so that no other segment is
  taken for a dot segment once it is encoded.
- `formEncode_injective`: a form value determines the text it encodes.
-/
import Mathlib.Data.List.TakeWhile
import ClassAtlas.Web.Address

namespace ClassAtlas.Web

open ClassAtlas.Text

/-! ## Bytes -/

theorem digit?_upperDigit {n : Nat} (h : n < 16) : digit? (upperDigit n) = some n := by
  have hall : ((List.range 16).all fun m => digit? (upperDigit m) == some m) = true := by decide
  simpa using List.all_eq_true.1 hall n (List.mem_range.2 h)

theorem byte?_upperDigit (b : UInt8) : byte? (upperDigit (b.toNat / 16)) (upperDigit (b.toNat % 16)) = some b := by
  have hlt : b.toNat < 256 := b.toNat_lt
  have hhigh : digit? (upperDigit (b.toNat / 16)) = some (b.toNat / 16) := digit?_upperDigit (by omega)
  have hlow : digit? (upperDigit (b.toNat % 16)) = some (b.toNat % 16) := digit?_upperDigit (by omega)
  have hsum : b.toNat / 16 * 16 + b.toNat % 16 = b.toNat := by omega
  have hbyte : byte? (upperDigit (b.toNat / 16)) (upperDigit (b.toNat % 16)) =
      some (b.toNat / 16 * 16 + b.toNat % 16).toUInt8 := by
    unfold byte?
    rw [hhigh, hlow]
    rfl
  rw [hbyte, hsum, Nat.toUInt8_eq, UInt8.ofNat_toNat]

theorem percentDecode_percentByte (b : UInt8) (r : List Char) :
    percentDecode (percentByte b ++ r) = b :: percentDecode r := by
  simp only [percentByte, List.cons_append, List.nil_append]
  rw [percentDecode, byte?_upperDigit]

theorem percentDecode_bytes (bs : List UInt8) (r : List Char) :
    percentDecode (bs.flatMap percentByte ++ r) = bs ++ percentDecode r := by
  induction bs with
  | nil => rfl
  | cons b bs ih => rw [List.flatMap_cons, List.append_assoc, percentDecode_percentByte, ih, List.cons_append]

theorem percentDecode_cons {c : Char} (h : c ≠ '%') (r : List Char) :
    percentDecode (c :: r) = String.utf8EncodeChar c ++ percentDecode r := by
  rw [percentDecode]
  intro high low r' hc
  exact absurd hc h

/-! ## Percent encoding -/

section

variable {keeps : Char → Bool}

theorem percentDecode_encodeChar (hpercent : keeps '%' = false) (c : Char) (r : List Char) :
    percentDecode (encodeChar keeps c ++ r) = String.utf8EncodeChar c ++ percentDecode r := by
  unfold encodeChar
  split
  · rename_i hkept
    apply percentDecode_cons
    rintro rfl
    rw [hpercent] at hkept
    cases hkept
  · exact percentDecode_bytes _ r

/-- **Decoding undoes encoding.** -/
theorem percentDecode_percentEncode (hpercent : keeps '%' = false) (s : List Char) :
    percentDecode (percentEncode keeps s) = Utf8.encode s := by
  induction s with
  | nil => rfl
  | cons c s ih =>
    rw [percentEncode, List.flatMap_cons, ← percentEncode, percentDecode_encodeChar hpercent, ih]
    rfl

theorem encode_injective : Function.Injective Utf8.encode := by
  intro s t h
  have hbytes : s.utf8Encode = t.utf8Encode := congrArg List.toByteArray h
  have hdecoded := congrArg ByteArray.utf8Decode? hbytes
  simpa [List.utf8Decode?_utf8Encode] using hdecoded

theorem of_mem_percentByte (ok : Char → Bool) (hpercent : ok '%' = true) (hdigit : ∀ n < 16, ok (upperDigit n) = true)
    {b : UInt8} {c : Char} (hc : c ∈ percentByte b) : ok c = true := by
  have hlt : b.toNat < 256 := b.toNat_lt
  simp only [percentByte, List.mem_cons, List.not_mem_nil, or_false] at hc
  rcases hc with rfl | rfl | rfl
  · exact hpercent
  · exact hdigit _ (by omega)
  · exact hdigit _ (by omega)

/-- an encoded text is made of characters that are kept, percent signs and digits -/
theorem of_mem_percentEncode (ok : Char → Bool) (hpercent : ok '%' = true) (hdigit : ∀ n < 16, ok (upperDigit n) = true)
    {s : List Char} (hkept : ∀ c ∈ s, keeps c = true → ok c = true) {c : Char} (hc : c ∈ percentEncode keeps s) :
    ok c = true := by
  obtain ⟨d, hd, hcd⟩ := List.mem_flatMap.1 hc
  unfold encodeChar at hcd
  split at hcd
  · rename_i hkeeps
    rw [List.mem_singleton.1 hcd]
    exact hkept d hd hkeeps
  · obtain ⟨b, -, hb⟩ := List.mem_flatMap.1 hcd
    exact of_mem_percentByte ok hpercent hdigit hb

/-! ## Dots -/

/-- only a dot is encoded by the byte of a dot -/
theorem eq_dot_of_head? {c : Char} (h : (String.utf8EncodeChar c).head? = some 0x2E) : c = '.' := by
  have hbyte : ∀ n : Nat, n < 256 → UInt8.ofNat n = 0x2E → n = 0x2E := by
    intro n hn heq
    have hnat := congrArg UInt8.toNat heq
    simpa [Nat.mod_eq_of_lt hn] using hnat
  unfold String.utf8EncodeChar at h
  simp only at h
  split_ifs at h with h1 h2 h3
  all_goals
    simp only [List.head?_cons, Option.some.injEq] at h
    have hcode := hbyte _ (by omega) h
  · exact Char.toNat_inj.1 hcode
  all_goals omega

theorem plainDots_cons {c : Char} (h : c ≠ '%') (r : List Char) : plainDots (c :: r) = c :: plainDots r := by
  rw [plainDots]
  · exact fun r' hc => absurd hc h
  · exact fun r' hc => absurd hc h

/-- an encoded byte other than that of a dot is not read as a dot -/
theorem plainDots_percentByte {b : UInt8} (hb : b ≠ 0x2E) (r : List Char) :
    ∃ t, plainDots (percentByte b ++ r) = '%' :: t := by
  have hbyte := byte?_upperDigit b
  simp only [percentByte, List.cons_append, List.nil_append]
  generalize upperDigit (b.toNat / 16) = high at hbyte
  generalize upperDigit (b.toNat % 16) = low at hbyte
  have hdot : ∀ d, byte? '2' d = some 0x2E → ∀ r', '%' = '%' → high :: low :: r = '2' :: d :: r' → False := by
    intro d hd r' _ heq
    injection heq with hhigh hrest
    injection hrest with hlow _
    rw [hhigh, hlow, hd] at hbyte
    exact hb (Option.some.inj hbyte).symm
  refine ⟨plainDots (high :: low :: r), ?_⟩
  rw [plainDots]
  · exact hdot 'e' (by decide)
  · exact hdot 'E' (by decide)

/-- **No other text is read as dots once it is encoded.** -/
theorem eq_dots_of_plainDots (hpercent : keeps '%' = false) (hdot : keeps '.' = true) {s : List Char} {n : Nat}
    (h : plainDots (percentEncode keeps s) = List.replicate n '.') : s = List.replicate n '.' := by
  induction s generalizing n with
  | nil => exact h
  | cons c s ih =>
    rw [percentEncode, List.flatMap_cons, ← percentEncode] at h
    by_cases hc : keeps c = true
    · have hne : c ≠ '%' := by
        rintro rfl
        rw [hpercent] at hc
        cases hc
      rw [encodeChar, if_pos hc, List.singleton_append, plainDots_cons hne] at h
      cases n with
      | zero => cases h
      | succ n =>
        rw [List.replicate_succ, List.cons.injEq] at h
        rw [List.replicate_succ, h.1, ih h.2]
    · -- the first byte of a character that is not kept is no dot
      rw [encodeChar, if_neg hc] at h
      cases hbytes : String.utf8EncodeChar c with
      | nil => exact absurd hbytes String.utf8EncodeChar_ne_nil
      | cons b bs =>
        have hb : b ≠ 0x2E := by
          rintro rfl
          have hdotted : c = '.' := eq_dot_of_head? (by rw [hbytes]; rfl)
          rw [hdotted] at hc
          exact hc hdot
        obtain ⟨t, ht⟩ := plainDots_percentByte hb (bs.flatMap percentByte ++ percentEncode keeps s)
        rw [hbytes, List.flatMap_cons, List.append_assoc, ht] at h
        cases n with
        | zero => cases h
        | succ n =>
          rw [List.replicate_succ, List.cons.injEq] at h
          exact absurd h.1 (by decide)

end

/-! ## Form values -/

theorem swap_encodeChar (c : Char) : swap '+' ' ' (encodeChar keptInForm c) = encodeChar keptInForm c := by
  have hplus : ∀ d ∈ encodeChar keptInForm c, (d != '+') = true := by
    intro d hd
    have hmem : d ∈ percentEncode keptInForm [c] := by simpa [percentEncode] using hd
    refine of_mem_percentEncode (fun d => d != '+') (by decide) (by decide) ?_ hmem
    intro e _ hkept
    rw [bne_iff_ne]
    rintro rfl
    exact absurd hkept (by decide)
  have hfixed : ∀ d ∈ encodeChar keptInForm c, (if d == '+' then ' ' else d) = d := by
    intro d hd
    have hne : d ≠ '+' := by simpa using hplus d hd
    simp [hne]
  rw [swap, List.map_congr_left hfixed, List.map_id']

theorem swap_formEncode (s : List Char) :
    swap '+' ' ' (formEncode s) = percentEncode (fun c => c == ' ' || keptInForm c) s := by
  induction s with
  | nil => rfl
  | cons c s ih =>
    have hchar : swap '+' ' ' (if c == ' ' then ['+'] else encodeChar keptInForm c) =
        encodeChar (fun c => c == ' ' || keptInForm c) c := by
      by_cases hc : c = ' '
      · rw [hc]
        decide
      · have hspace : (c == ' ') = false := by simpa using hc
        rw [hspace, if_neg Bool.false_ne_true, swap_encodeChar]
        simp [encodeChar, hspace]
    rw [formEncode, List.flatMap_cons, ← formEncode, percentEncode, List.flatMap_cons, ← percentEncode, ← hchar, ← ih]
    exact List.map_append

/-- **A form value determines its text.** -/
theorem formEncode_injective : Function.Injective formEncode := by
  intro s t h
  have hswap := congrArg (swap '+' ' ') h
  rw [swap_formEncode, swap_formEncode] at hswap
  have hbytes := congrArg percentDecode hswap
  rw [percentDecode_percentEncode (by decide), percentDecode_percentEncode (by decide)] at hbytes
  exact encode_injective hbytes

end ClassAtlas.Web
