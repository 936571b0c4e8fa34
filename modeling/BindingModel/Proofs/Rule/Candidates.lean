import BindingModel.Rule.Database
import Mathlib.Data.String.Basic

/-! The names that a mistaken name may mean: those of entries in any scope whose last part it is. -/
namespace BindingModel.Database

theorem mem_insertSorted {m s : String} {l : List String} :
    m ∈ insertSorted s l ↔ m = s ∨ m ∈ l := by
  induction l with
  | nil => simp [insertSorted]
  | cons t ts ih =>
    unfold insertSorted
    split
    · simp
    · split
      · next heq => simp [heq]
      · rw [List.mem_cons, ih, List.mem_cons, or_left_comm]

theorem pairwise_insertSorted (s : String) {l : List String} (hl : l.Pairwise (· < ·)) :
    (insertSorted s l).Pairwise (· < ·) := by
  induction l with
  | nil => exact List.pairwise_singleton _ _
  | cons t ts ih =>
    obtain ⟨ht, hts⟩ := List.pairwise_cons.mp hl
    unfold insertSorted
    split
    · next hlt =>
      refine List.pairwise_cons.mpr ⟨List.forall_mem_cons.mpr ⟨hlt, ?_⟩, hl⟩
      exact fun u hu => lt_trans hlt (ht u hu)
    · next hlt =>
      split
      · exact hl
      · next hne =>
        refine List.pairwise_cons.mpr ⟨fun u hu => ?_, ih hts⟩
        rcases mem_insertSorted.mp hu with rfl | hu
        · exact lt_of_le_of_ne (not_lt.mp hlt) (Ne.symm hne)
        · exact ht u hu

/-- The candidates are sorted, each of them once. -/
theorem pairwise_candidates (db : Database) (name : String) :
    (db.candidates name).Pairwise (· < ·) := by
  unfold candidates
  dsimp only
  generalize List.filter _ _ = names
  induction names with
  | nil => exact .nil
  | cons n names ih => exact pairwise_insertSorted n ih

theorem isSuffixOf_scope_iff {name n : String} :
    (':' :: ':' :: name.toList).isSuffixOf n.toList = true ↔ ∃ outer, n = outer ++ "::" ++ name := by
  rw [List.isSuffixOf_iff_suffix]
  constructor
  · rintro ⟨outer, houter⟩
    refine ⟨.ofList outer, String.toList_inj.mp ?_⟩
    simp [← houter]
  · rintro ⟨outer, rfl⟩
    exact ⟨outer.toList, by simp⟩

theorem mem_candidates_iff {db : Database} {name n : String} :
    n ∈ db.candidates name ↔
      (∃ e ∈ db.entries, e.name = n) ∧ ∃ outer, n = outer ++ "::" ++ name := by
  have hmem : ∀ names : List String, n ∈ names.foldr insertSorted [] ↔ n ∈ names := by
    intro names
    induction names with
    | nil => rfl
    | cons m names ih => rw [List.foldr_cons, mem_insertSorted, ih, List.mem_cons]
  have hsuffix : (':' :: ':' :: name.toList).reverse.isPrefixOf n.toList.reverse = true ↔
      ∃ outer, n = outer ++ "::" ++ name := isSuffixOf_scope_iff
  unfold candidates
  dsimp only
  rw [hmem, List.mem_filter, hsuffix, List.mem_map]

end BindingModel.Database
