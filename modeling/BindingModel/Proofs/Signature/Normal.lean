import BindingModel.Signature.Normal
import BindingModel.Text.Cut
import Mathlib.Data.List.Forall2

/-! Texts that stand for one another in every signature, since they differ in insignificant blanks
only. -/
namespace BindingModel.Signature
open Text
variable {a b c d : String} {last? : Option Char} {blank : Bool}

/-- Blanks that follow no name character leave no trace. -/
theorem normalizeFrom_blank (hlast : last?.any isNameChar = false) (s : List Char) :
    normalizeFrom last? true s = normalizeFrom last? false s := by
  cases s with
  | nil => rfl
  | cons c s => simp [normalizeFrom, hlast]

theorem normalizeFrom_append {s t : List Char}
    (h : ∀ last? blank, normalizeFrom last? blank s = normalizeFrom last? blank t)
    (before : List Char) :
    normalizeFrom last? blank (before ++ s) = normalizeFrom last? blank (before ++ t) := by
  induction before generalizing last? blank with
  | nil => exact h last? blank
  | cons c before ih =>
    simp only [List.cons_append, normalizeFrom]
    split
    · exact ih
    · split <;> rw [ih]

/-- A normal form is its own normal form. -/
theorem normalizeFrom_normalizeFrom (s : List Char) :
    normalizeFrom last? false (normalizeFrom last? blank s) = normalizeFrom last? blank s := by
  induction s generalizing last? blank with
  | nil => rfl
  | cons c s ih =>
    have hspace : isBlank ' ' = true := by decide
    by_cases hc : isBlank c = true
    · simp only [normalizeFrom, hc, if_true]
      exact ih
    · by_cases hkept : (blank && last?.any isNameChar && isNameChar c) = true
      · have hstep : normalizeFrom last? blank (c :: s) = ' ' :: c :: normalizeFrom c false s := by
          rw [normalizeFrom, if_neg hc, if_pos hkept]
        simp only [Bool.and_eq_true] at hkept
        have hagain : (true && last?.any isNameChar && isNameChar c) = true := by
          simp [hkept.1.2, hkept.2]
        rw [hstep, normalizeFrom, if_pos hspace, normalizeFrom, if_neg hc, if_pos hagain, ih]
      · have hstep : normalizeFrom last? blank (c :: s) = c :: normalizeFrom c false s := by
          rw [normalizeFrom, if_neg hc, if_neg hkept]
        rw [hstep, normalizeFrom, if_neg hc, if_neg (by simp), ih]

@[simp] theorem normalize_normalize (s : String) : normalize (normalize s) = normalize s := by
  unfold normalize
  rw [String.toList_ofList, normalizeFrom_normalizeFrom]

/-- Either text may stand for the other in every signature. -/
def Alike (a b : String) : Prop :=
  ∀ before after : String, normalize (before ++ a ++ after) = normalize (before ++ b ++ after)

namespace Alike

theorem refl (a : String) : Alike a a := fun _ _ => rfl

theorem symm (h : Alike a b) : Alike b a := fun before after => (h before after).symm

theorem append (hab : Alike a b) (hcd : Alike c d) : Alike (a ++ c) (b ++ d) := by
  intro before after
  have hleft := hab before (c ++ after)
  have hright := hcd (before ++ b) after
  simp only [String.append_assoc] at hleft hright ⊢
  exact hleft.trans hright

theorem normalize_eq (h : Alike a b) : normalize a = normalize b := by
  simpa using h "" ""

/-- A blank behind a comma is insignificant. -/
theorem comma : Alike ", " "," := by
  intro before after
  unfold normalize
  simp only [String.toList_append, List.append_assoc]
  refine congrArg String.ofList (normalizeFrom_append (fun last? blank => ?_) before.toList)
  have hname : isNameChar ',' = false := by decide
  have hcomma : isBlank ',' = false := by decide
  have hspace : isBlank ' ' = true := by decide
  have hlast : (some ',').any isNameChar = false := by simpa using hname
  have hskip := normalizeFrom_blank hlast after.toList
  simp [normalizeFrom, hname, hcomma, hspace, hskip]

theorem joinWith {as bs : List String} (sep : String) (h : List.Forall₂ Alike as bs) :
    Alike (joinWith sep as) (joinWith sep bs) := by
  induction h with
  | nil => exact refl ""
  | cons hab hrest ih =>
    cases hrest with
    | nil => exact hab
    | cons _ _ => exact (hab.append (refl sep)).append ih

end Alike
end BindingModel.Signature
