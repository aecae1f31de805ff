/-
Which paths of a listing are taken, and in which order.

`mem_withExtension`, `withExtension_nodup` and `withExtension_pairwise` pin the choice down: the paths with the extension,
each once, in the order in which the listing first names them; `eq_withExtension_iff`: no other list is this.
`withExtension_filter`: other paths may be left out before or after. `find?_withExtension`: the first path taken that has a
property is the first of the listing that has it and the extension.
-/
import Mathlib.Data.List.Sort
import ClassAtlas.Repository.Selection

namespace ClassAtlas.Repository

open ClassAtlas.Collect

variable {paths : List String} {extension p : String}

/-- repetitions may be dropped before the choice -/
theorem withExtension_eq (paths : List String) (extension : String) :
    withExtension paths extension =
      (keepFirst (fun p => p) paths).filter fun p => extension.toList.isSuffixOf p.toList :=
  (filter_keepFirst (fun p : String => p) (fun p : String => extension.toList.isSuffixOf p.toList) paths).symm

theorem mem_withExtension : p ∈ withExtension paths extension ↔ p ∈ paths ∧ extension.toList <:+ p.toList := by
  rw [withExtension_eq, List.mem_filter, List.isSuffixOf_iff_suffix]
  exact and_congr_left fun _ => mem_keepFirst_id

theorem withExtension_nodup (paths : List String) (extension : String) : (withExtension paths extension).Nodup :=
  keepFirst_pairwise _ _

theorem withExtension_pairwise (paths : List String) (extension : String) :
    (withExtension paths extension).Pairwise fun p q => paths.idxOf p < paths.idxOf q := by
  rw [withExtension_eq]
  exact (keepFirst_pairwise_idxOf paths).filter _

/-- nothing else is distinct paths with the extension in this order -/
theorem eq_withExtension_iff {l : List String} :
    l = withExtension paths extension ↔
      l.Nodup ∧ (∀ p, p ∈ l ↔ p ∈ paths ∧ extension.toList <:+ p.toList) ∧
        l.Pairwise fun p q => paths.idxOf p < paths.idxOf q := by
  constructor
  · rintro rfl
    exact ⟨withExtension_nodup .., fun p => mem_withExtension, withExtension_pairwise ..⟩
  · rintro ⟨-, hmem, horder⟩
    have hirrefl : Std.Irrefl fun p q => paths.idxOf p < paths.idxOf q := ⟨fun p => Nat.lt_irrefl _⟩
    have hantisymm : Std.Antisymm fun p q => paths.idxOf p < paths.idxOf q :=
      ⟨fun p q hpq hqp => absurd (Nat.lt_trans hpq hqp) (Nat.lt_irrefl _)⟩
    exact horder.eq_of_mem_iff (withExtension_pairwise paths extension)
      fun p => (hmem p).trans mem_withExtension.symm

/-- paths may be left out before or after the choice -/
theorem withExtension_filter (paths : List String) (extension : String) (ok : String → Bool) :
    withExtension (paths.filter ok) extension = (withExtension paths extension).filter ok := by
  simp only [withExtension]
  rw [List.filter_comm]
  exact (filter_keepFirst id ok _).symm

theorem find?_withExtension (paths : List String) (extension : String) (ok : String → Bool) :
    (withExtension paths extension).find? ok =
      paths.find? fun p => decide (extension.toList <:+ p.toList) && ok p := by
  refine (find?_keepFirst id ok _).trans ?_
  simp [List.find?_filter]

end ClassAtlas.Repository
