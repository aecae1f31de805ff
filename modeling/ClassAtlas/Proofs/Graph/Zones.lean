/-
Zones by degrees: read over the rationals, where a class lies follows from its two degrees and from whether it is an
abstraction.

The zone is decided by tests, in this order, of abstractness, instability and distance against tenths. Each test is a
comparison of multiples of the degrees; a class on its own has no quotient and is a case apart.

- `instabilityOf_lt_iff`, `lt_instabilityOf_iff`: a comparison with tenths, in whole numbers.
- `zone_of_concrete`, `zone_of_abstraction`: the tests that are left for the two kinds of classes.
- `InPain`, `InUselessness`, `OnMainSequence`: what the degrees of a class in each zone are like.
- `zones_by_degrees`: ranges and values of the metrics, and for each zone the degrees that lead to it.
-/
import Mathlib.Algebra.Order.Field.Rat
import Mathlib.Tactic.Linarith
import Mathlib.Tactic.NormNum
import ClassAtlas.Graph.Coupling
import ClassAtlas.Proofs.Graph.Restriction

namespace ClassAtlas.Graph

open ClassAtlas.Source

/-- exact numbers -/
instance : Scalar ℚ where
  ofNat n := n
  tenths n := n / 10
  add x y := x + y
  sub x y := x - y
  div x y := x / y
  abs x := |x|
  lt x y := decide (x < y)

variable {i o : ℕ} {c : ClassInfo}

/-! ## Instability -/

theorem instabilityOf_alone (h : i + o = 0) : (instabilityOf i o : ℚ) = 0 := by
  rw [instabilityOf, if_pos h]
  exact Nat.cast_zero

theorem instabilityOf_mul (h : i + o ≠ 0) : (instabilityOf i o : ℚ) * (i + o : ℕ) = o := by
  rw [instabilityOf, if_neg h]
  exact div_mul_cancel₀ _ (Nat.cast_ne_zero.2 h)

theorem instabilityOf_range (i o : ℕ) : 0 ≤ (instabilityOf i o : ℚ) ∧ (instabilityOf i o : ℚ) ≤ 1 := by
  by_cases h : i + o = 0
  · rw [instabilityOf_alone h]
    exact ⟨le_rfl, zero_le_one⟩
  · rw [instabilityOf, if_neg h]
    refine ⟨div_nonneg (Nat.cast_nonneg o) (Nat.cast_nonneg _), div_le_one_of_le₀ ?_ (Nat.cast_nonneg _)⟩
    exact Nat.cast_le.2 (Nat.le_add_left o i)

/-- below so many tenths, for a class that is not on its own -/
theorem instabilityOf_lt_iff (k : ℕ) (h : i + o ≠ 0) :
    (instabilityOf i o : ℚ) < k / 10 ↔ 10 * o < k * (i + o) := by
  have hpos : (0 : ℚ) < (i + o : ℕ) := Nat.cast_pos.2 (Nat.pos_of_ne_zero h)
  calc (instabilityOf i o : ℚ) < k / 10
      ↔ (instabilityOf i o : ℚ) * (i + o : ℕ) < k / 10 * (i + o : ℕ) := (mul_lt_mul_iff_left₀ hpos).symm
    _ ↔ (10 * o : ℚ) < k * (i + o : ℕ) := by
      rw [instabilityOf_mul h]
      constructor <;> intro <;> linarith
    _ ↔ 10 * o < k * (i + o) := by exact_mod_cast Iff.rfl

theorem lt_instabilityOf_iff (k : ℕ) : k / 10 < (instabilityOf i o : ℚ) ↔ k * (i + o) < 10 * o := by
  by_cases h : i + o = 0
  · -- neither side holds of a class on its own
    have hnot : ¬ (k / 10 : ℚ) < 0 := not_lt.2 (div_nonneg (Nat.cast_nonneg k) (by norm_num))
    rw [instabilityOf_alone h]
    exact iff_of_false hnot (by omega)
  · have hpos : (0 : ℚ) < (i + o : ℕ) := Nat.cast_pos.2 (Nat.pos_of_ne_zero h)
    calc k / 10 < (instabilityOf i o : ℚ)
        ↔ (k / 10 * (i + o : ℕ) : ℚ) < (instabilityOf i o : ℚ) * (i + o : ℕ) := (mul_lt_mul_iff_left₀ hpos).symm
      _ ↔ (k * (i + o : ℕ) : ℚ) < 10 * o := by
        rw [instabilityOf_mul h]
        constructor <;> intro <;> linarith
      _ ↔ k * (i + o) < 10 * o := by exact_mod_cast Iff.rfl

/-! ## Distance -/

theorem distance_of_concrete (h : c.isAbstraction = false) :
    (couplingOf c : CouplingRow ℚ).distance = 1 - instabilityOf c.incoming c.outgoing.size := by
  have hle := (instabilityOf_range c.incoming c.outgoing.size).2
  calc (couplingOf c : CouplingRow ℚ).distance
      = |((0 : ℕ) : ℚ) + instabilityOf c.incoming c.outgoing.size - ((1 : ℕ) : ℚ)| := by simp only [couplingOf, h]; rfl
    _ = |instabilityOf c.incoming c.outgoing.size - 1| := by rw [Nat.cast_zero, Nat.cast_one, zero_add]
    _ = 1 - instabilityOf c.incoming c.outgoing.size := by rw [abs_of_nonpos (sub_nonpos.2 hle), neg_sub]

theorem distance_of_abstraction (h : c.isAbstraction = true) :
    (couplingOf c : CouplingRow ℚ).distance = instabilityOf c.incoming c.outgoing.size := by
  have hnonneg := (instabilityOf_range c.incoming c.outgoing.size).1
  calc (couplingOf c : CouplingRow ℚ).distance
      = |((1 : ℕ) : ℚ) + instabilityOf c.incoming c.outgoing.size - ((1 : ℕ) : ℚ)| := by simp only [couplingOf, h]; rfl
    _ = |instabilityOf c.incoming c.outgoing.size| := by rw [add_sub_cancel_left]
    _ = instabilityOf c.incoming c.outgoing.size := abs_of_nonneg hnonneg

/-! ## Zones -/

/-- the tests in whole tenths -/
theorem zone_eq (r : CouplingRow ℚ) :
    r.zone =
      if r.abstractness < (2 : ℕ) / 10 ∧ r.instability < (2 : ℕ) / 10 ∧ 0 < r.incoming then .pain
      else if (8 : ℕ) / 10 < r.abstractness ∧ (8 : ℕ) / 10 < r.instability then .uselessness
      else if r.distance < (3 : ℕ) / 10 then .mainSequence
      else .offSequence := by
  simp only [CouplingRow.zone, Scalar.lt, Scalar.tenths, Bool.and_eq_true, decide_eq_true_iff, and_assoc]

theorem zone_of_concrete (h : c.isAbstraction = false) :
    (couplingOf c : CouplingRow ℚ).zone =
      if 4 * c.outgoing.size < c.incoming then .pain
      else if 7 * c.incoming < 3 * c.outgoing.size then .mainSequence
      else .offSequence := by
  have habstract : (couplingOf c : CouplingRow ℚ).abstractness = 0 := by
    simp only [couplingOf, h]
    exact Nat.cast_zero
  have hpain : (couplingOf c : CouplingRow ℚ).instability < (2 : ℕ) / 10 ∧ 0 < (couplingOf c : CouplingRow ℚ).incoming ↔
      4 * c.outgoing.size < c.incoming := by
    by_cases halone : c.incoming + c.outgoing.size = 0
    · exact iff_of_false (fun hboth => absurd hboth.2 (by simp only [couplingOf]; omega)) (by omega)
    · refine (and_congr_left' (instabilityOf_lt_iff 2 halone)).trans ?_
      simp only [couplingOf]
      omega
  have hmain : (couplingOf c : CouplingRow ℚ).distance < (3 : ℕ) / 10 ↔ 7 * c.incoming < 3 * c.outgoing.size := by
    have htenths : (1 : ℚ) - instabilityOf c.incoming c.outgoing.size < (3 : ℕ) / 10 ↔
        (7 : ℕ) / 10 < (instabilityOf c.incoming c.outgoing.size : ℚ) := by
      have hrest : (1 : ℚ) - (3 : ℕ) / 10 = (7 : ℕ) / 10 := by norm_num
      rw [sub_lt_comm, hrest]
    rw [distance_of_concrete h, htenths, lt_instabilityOf_iff]
    omega
  have hlow : (couplingOf c : CouplingRow ℚ).abstractness < (2 : ℕ) / 10 := by rw [habstract]; norm_num
  have hhigh : ¬ (8 : ℕ) / 10 < (couplingOf c : CouplingRow ℚ).abstractness := by rw [habstract]; norm_num
  simp only [zone_eq, hlow, hhigh, hpain, hmain, true_and, false_and, if_false]

theorem zone_of_abstraction (h : c.isAbstraction = true) :
    (couplingOf c : CouplingRow ℚ).zone =
      if 4 * c.incoming < c.outgoing.size then .uselessness
      else if c.incoming + c.outgoing.size = 0 ∨ 7 * c.outgoing.size < 3 * c.incoming then .mainSequence
      else .offSequence := by
  have habstract : (couplingOf c : CouplingRow ℚ).abstractness = 1 := by
    simp only [couplingOf, h]
    exact Nat.cast_one
  have huseless : (8 : ℕ) / 10 < (couplingOf c : CouplingRow ℚ).instability ↔ 4 * c.incoming < c.outgoing.size := by
    refine (lt_instabilityOf_iff 8).trans ?_
    omega
  have hmain : (couplingOf c : CouplingRow ℚ).distance < (3 : ℕ) / 10 ↔
      c.incoming + c.outgoing.size = 0 ∨ 7 * c.outgoing.size < 3 * c.incoming := by
    rw [distance_of_abstraction h]
    by_cases halone : c.incoming + c.outgoing.size = 0
    · rw [instabilityOf_alone halone]
      exact iff_of_true (by norm_num) (Or.inl halone)
    · rw [instabilityOf_lt_iff 3 halone]
      omega
  have hlow : ¬ (couplingOf c : CouplingRow ℚ).abstractness < (2 : ℕ) / 10 := by rw [habstract]; norm_num
  have hhigh : (8 : ℕ) / 10 < (couplingOf c : CouplingRow ℚ).abstractness := by rw [habstract]; norm_num
  simp only [zone_eq, hlow, hhigh, huseless, hmain, true_and, false_and, if_false]

/-! ## Rows -/

section Conditions

variable (abstraction : Bool) (i o : ℕ)

/-- concrete, and led to by more than four times as many classes as it leads to -/
def InPain : Prop := abstraction = false ∧ 4 * o < i

/-- an abstraction that leads to more than four times as many classes as lead to it -/
def InUselessness : Prop := abstraction = true ∧ 4 * i < o

/-- concrete and leading to others, or an abstraction on its own or led to, by seven to three -/
def OnMainSequence : Prop :=
  abstraction = false ∧ 7 * i < 3 * o ∨ abstraction = true ∧ (i + o = 0 ∨ 7 * o < 3 * i)

instance : Decidable (InPain abstraction i o) := inferInstanceAs (Decidable (_ ∧ _))

instance : Decidable (InUselessness abstraction i o) := inferInstanceAs (Decidable (_ ∧ _))

instance : Decidable (OnMainSequence abstraction i o) := inferInstanceAs (Decidable (_ ∨ _))

/-- no class meets two of them, so the tests may be made in any order -/
theorem conditions_disjoint :
    (InPain abstraction i o → ¬ InUselessness abstraction i o) ∧ (InPain abstraction i o → ¬ OnMainSequence abstraction i o) ∧
      (InUselessness abstraction i o → ¬ OnMainSequence abstraction i o) := by
  refine ⟨fun hpain huseless => ?_, fun hpain hmain => ?_, fun huseless hmain => ?_⟩
  · exact Bool.false_ne_true (hpain.1.symm.trans huseless.1)
  · obtain ⟨hconcrete, hstable⟩ := hpain
    rcases hmain with ⟨-, hunstable⟩ | ⟨habstract, -⟩
    · omega
    · exact Bool.false_ne_true (hconcrete.symm.trans habstract)
  · obtain ⟨habstract, hunstable⟩ := huseless
    rcases hmain with ⟨hconcrete, -⟩ | ⟨-, hstable⟩
    · exact Bool.false_ne_true (hconcrete.symm.trans habstract)
    · omega

end Conditions

theorem zone_couplingOf (c : ClassInfo) :
    (couplingOf c : CouplingRow ℚ).zone =
      if InPain c.isAbstraction c.incoming c.outgoing.size then .pain
      else if InUselessness c.isAbstraction c.incoming c.outgoing.size then .uselessness
      else if OnMainSequence c.isAbstraction c.incoming c.outgoing.size then .mainSequence
      else .offSequence := by
  cases hkind : c.isAbstraction with
  | false =>
    rw [zone_of_concrete hkind]
    simp [InPain, InUselessness, OnMainSequence]
  | true =>
    rw [zone_of_abstraction hkind]
    simp [InPain, InUselessness, OnMainSequence]

/-- what the row of a class says, against its degrees -/
structure ByDegrees (c : ClassInfo) (row : CouplingRow ℚ) : Prop where
  incoming : row.incoming = c.incoming
  outgoing : row.outgoing = c.outgoing.size
  instability_range : 0 ≤ row.instability ∧ row.instability ≤ 1
  distance_range : 0 ≤ row.distance ∧ row.distance ≤ 1
  distance_concrete : c.isAbstraction = false → row.distance = 1 - row.instability
  distance_abstraction : c.isAbstraction = true → row.distance = row.instability
  pain : row.zone = .pain ↔ InPain c.isAbstraction row.incoming row.outgoing
  uselessness : row.zone = .uselessness ↔ InUselessness c.isAbstraction row.incoming row.outgoing
  mainSequence : row.zone = .mainSequence ↔ OnMainSequence c.isAbstraction row.incoming row.outgoing
  /-- in all other cases -/
  offSequence : row.zone = .offSequence ↔ ¬ InPain c.isAbstraction row.incoming row.outgoing ∧
    ¬ InUselessness c.isAbstraction row.incoming row.outgoing ∧ ¬ OnMainSequence c.isAbstraction row.incoming row.outgoing

theorem distance_range (c : ClassInfo) :
    0 ≤ (couplingOf c : CouplingRow ℚ).distance ∧ (couplingOf c : CouplingRow ℚ).distance ≤ 1 := by
  obtain ⟨hnonneg, hle⟩ := instabilityOf_range c.incoming c.outgoing.size
  cases hkind : c.isAbstraction with
  | false =>
    rw [distance_of_concrete hkind]
    exact ⟨sub_nonneg.2 hle, sub_le_self 1 hnonneg⟩
  | true =>
    rw [distance_of_abstraction hkind]
    exact ⟨hnonneg, hle⟩

theorem byDegrees_couplingOf (c : ClassInfo) : ByDegrees c (couplingOf c) := by
  have hzone := zone_couplingOf c
  have hrange := instabilityOf_range c.incoming c.outgoing.size
  obtain ⟨hpain, hpainMain, huselessMain⟩ := conditions_disjoint c.isAbstraction c.incoming c.outgoing.size
  refine ⟨rfl, rfl, hrange, distance_range c, distance_of_concrete, distance_of_abstraction, ?_, ?_, ?_, ?_⟩
  all_goals
    rw [hzone]
    simp only [couplingOf]
    split_ifs <;> simp_all

/-- **Zones by degrees.** For every list of classes the graph is built, and the coupling table over the rationals says of
each class, in their order, what its degrees and its kind say. -/
theorem zones_by_degrees (l : List ClassInfo) :
    ∃ g, build l = .ok g ∧ List.Forall₂ ByDegrees g.classes (g.coupling : List (CouplingRow ℚ)) := by
  refine ⟨assemble l, build_eq_ok l, ?_⟩
  rw [ClassGraph.coupling, List.forall₂_map_right_iff, List.forall₂_same]
  exact fun c _ => byDegrees_couplingOf c

end ClassAtlas.Graph
