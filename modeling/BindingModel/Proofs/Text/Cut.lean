import BindingModel.Text.Cut
import Mathlib.Data.List.Basic

/-! A text cut at the first occurrence of a character. -/
namespace BindingModel.Text
variable {c : Char} {s a b : List Char}

theorem cutFirst?_eq_none_iff : cutFirst? [c] s = none ↔ c ∉ s := by
  induction s with
  | nil => simp [cutFirst?]
  | cons d s ih =>
    rw [cutFirst?]
    by_cases hcd : c = d
    · simp [hcd]
    · simp [hcd, ih]

theorem cutFirst?_append (ha : c ∉ a) (b : List Char) :
    cutFirst? [c] (a ++ c :: b) = some (a, b) := by
  induction a with
  | nil => simp [cutFirst?]
  | cons d a ih =>
    obtain ⟨hcd, ha⟩ := not_or.mp (mt List.mem_cons.mpr ha)
    rw [List.cons_append, cutFirst?, ih ha]
    simp [hcd]

theorem cutFirst?_eq_some_iff : cutFirst? [c] s = some (a, b) ↔ s = a ++ c :: b ∧ c ∉ a := by
  constructor
  · intro hcut
    have hmem : c ∈ s := by
      by_contra hnone
      rw [cutFirst?_eq_none_iff.mpr hnone] at hcut
      cases hcut
    obtain ⟨a', b', rfl, ha⟩ := List.eq_append_cons_of_mem hmem
    rw [cutFirst?_append ha] at hcut
    obtain ⟨rfl, rfl⟩ := Prod.mk.inj (Option.some.inj hcut)
    exact ⟨rfl, ha⟩
  · rintro ⟨rfl, ha⟩
    exact cutFirst?_append ha b

end BindingModel.Text
