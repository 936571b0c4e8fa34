import BindingModel.Proofs.Error
import BindingModel.Proofs.Pattern
import BindingModel.Proofs.Regex.Reading
import BindingModel.Rule.Rejection

/-! What a rejection rule covers that is spelled without regular expressions: the names that it
spells, or any name. -/
namespace BindingModel

namespace Rejection
open Pattern

/-- The text is taken for a regular expression. -/
def IsExpression (text : String) : Prop :=
  text.toList.head? = some '^' ∧ text.toList.getLast? = some '$'

instance (text : String) : Decidable (IsExpression text) := inferInstanceAs (Decidable (_ ∧ _))

/-- A rule's text that is no regular expression stands for the name: for itself, or, as a star,
for any name in one line. -/
def StandsFor (text name : String) : Prop :=
  if text = "*" then '\n' ∉ name.toList else name = text

variable {E : Engine}

/-- The parts of the source for a rule's text. -/
def partsOf (text : String) : List Part :=
  .textStart :: (if text = "*" then [.run .dot] else literal text.toList) ++ [.textEnd]

theorem anchoredSource_eq (hE : E.Documented) {text : String} (h : ¬ IsExpression text) :
    anchoredSource E text = spelling (partsOf text) := by
  unfold IsExpression at h
  unfold anchoredSource partsOf spelling
  rw [if_neg h]
  by_cases hstar : text = "*"
  · rw [if_pos hstar, if_pos hstar]
    rfl
  · rw [if_neg hstar, if_neg hstar, hE.escape_eq, List.cons_append, List.flatMap_cons,
      List.flatMap_append, spelled_literal]
    apply String.toList_inj.mp
    simp [Part.spelled]

theorem foundIn_partsOf_iff {text name : String} :
    FoundIn (partsOf text) name.toList ↔ StandsFor text name := by
  unfold partsOf StandsFor
  split
  · exact foundIn_line_iff
  · rw [← String.toList_inj]
    exact foundIn_literal_iff

/-- A text without regular expressions comes to a pattern that is found in what it stands for. -/
theorem anchored_spec (hE : E.Documented) {text : String} (h : ¬ IsExpression text) :
    ∃ p, anchored E text = .ok p ∧ ∀ name, p.occursIn name = true ↔ StandsFor text name := by
  obtain ⟨p, hp⟩ := hE.compiles (partsOf text)
  refine ⟨p, ?_, fun name => (hE.search hp name).trans foundIn_partsOf_iff⟩
  unfold anchored
  rw [anchoredSource_eq hE h, hp]

/-- A rule spelled without regular expressions is accepted, and it covers what is of its kind, in a
class and of a name that its texts stand for. -/
theorem covers_spelled_iff (hE : E.Documented) {kind : RejectionKind} (hkind : kind ≠ .excludeClass)
    {className pattern : String} (hclass : ¬ IsExpression className)
    (hpattern : ¬ IsExpression pattern) :
    ∃ r, make E kind className pattern = .ok r ∧ ∀ kind' className' name,
      r.covers kind' className' name = true ↔
        kind' = kind ∧ StandsFor className className' ∧ StandsFor pattern name := by
  obtain ⟨p, hp, hp'⟩ := anchored_spec hE hpattern
  obtain ⟨c, hc, hc'⟩ := anchored_spec hE hclass
  refine ⟨⟨kind, c, some p⟩, ?_, fun kind' className' name => ?_⟩
  · unfold make
    rw [if_neg hkind, hp, hc]
    rfl
  · simp only [covers, Option.all_some, Bool.and_eq_true, decide_eq_true_eq, hc', hp', and_assoc,
      eq_comm (a := kind)]

theorem covers_spelled_iff_list : Regex.engine.Documented ∧
    RejectionKind.argumentType ≠ .excludeClass ∧
    ¬ IsExpression "*" ∧ ¬ IsExpression "QList<int>*" ∧
    ∃ r, make Regex.engine .argumentType "*" "QList<int>*" = .ok r ∧ ∀ kind className name,
      r.covers kind className name = true ↔ kind = .argumentType ∧ StandsFor "*" className ∧
        StandsFor "QList<int>*" name := by
  have hkind : RejectionKind.argumentType ≠ .excludeClass := by decide
  have hstar : ¬ IsExpression "*" := by decide
  have hlist : ¬ IsExpression "QList<int>*" := by decide
  exact ⟨Regex.engine_documented, hkind, hstar, hlist,
    covers_spelled_iff Regex.engine_documented hkind hstar hlist⟩

end Rejection
end BindingModel
