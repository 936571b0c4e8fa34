import BindingModel.FlagSet

/-! Which flags a set has after it was changed. -/
namespace BindingModel.FlagSet
variable {α : Type} [DecidableEq α]

theorem has_insert (s : FlagSet α) (a b : α) :
    (s.insert a).has b = (s.has b || decide (b = a)) := by
  unfold insert
  split
  · next hmem =>
    by_cases hab : b = a
    · rw [hab, hmem, Bool.true_or]
    · rw [decide_eq_false hab, Bool.or_false]
  · simp [has]

theorem has_insertIf (s : FlagSet α) (c : Bool) (a b : α) :
    (s.insertIf c a).has b = (s.has b || c && decide (b = a)) := by
  cases c with
  | false => simp [insertIf]
  | true => simp [insertIf, has_insert]

theorem has_erase (s : FlagSet α) (a b : α) :
    (s.erase a).has b = (s.has b && !decide (b = a)) := by
  simp [erase, has]

theorem has_insertAll (s : FlagSet α) (l : List α) (b : α) :
    (s.insertAll l).has b = (s.has b || l.contains b) := by
  unfold insertAll
  induction l generalizing s with
  | nil => simp
  | cons a l ih =>
    rw [List.foldl_cons, ih, has_insert, Bool.or_assoc, List.contains_cons]
    congr 1

end BindingModel.FlagSet
