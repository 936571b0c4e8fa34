import BindingModel.Text.Cut

/-! The pieces of a text that is split at every character of a class. -/
namespace BindingModel.Text
variable {p : Char → Bool} {w s : List Char}

theorem splitBy_of_none (hw : ∀ c ∈ w, p c = false) : splitBy p w = [w] := by
  induction w with
  | nil => rfl
  | cons c w ih =>
    obtain ⟨hc, hw⟩ := List.forall_mem_cons.mp hw
    rw [splitBy, if_neg (by simp [hc]), ih hw]

theorem splitBy_append {c : Char} (hw : ∀ c ∈ w, p c = false) (hc : p c = true) (s : List Char) :
    splitBy p (w ++ c :: s) = w :: splitBy p s := by
  induction w with
  | nil => rw [List.nil_append, splitBy, if_pos hc]
  | cons d w ih =>
    obtain ⟨hd, hw⟩ := List.forall_mem_cons.mp hw
    rw [List.cons_append, splitBy, if_neg (by simp [hd]), ih hw]

/-- No piece has a character of the class. -/
theorem eq_false_of_mem_splitBy (hw : w ∈ splitBy p s) : ∀ c ∈ w, p c = false := by
  induction s generalizing w with
  | nil => simp_all [splitBy]
  | cons d s ih =>
    rw [splitBy] at hw
    split at hw
    · rcases List.mem_cons.mp hw with rfl | hw
      · simp
      · exact ih hw
    · rename_i hd
      cases hrest : splitBy p s with
      | nil => simp_all
      | cons v vs =>
        rw [hrest] at ih hw
        rcases List.mem_cons.mp hw with rfl | hw
        · have hv := ih List.mem_cons_self
          simp_all
        · exact ih (List.mem_cons_of_mem v hw)

end BindingModel.Text
