import BindingModel.Api.ClassStore
import BindingModel.Proofs.Graph.Search

/-! What a class inherits from: all that its primary bases lead to, and its own interfaces. -/
namespace BindingModel.Api.ClassStore
variable {s : ClassStore} {i j b : ClassId}

theorem lt_size_of_isLive (h : s.isLive i = true) : i < s.classes.size := by
  simp only [isLive, Bool.and_eq_true, decide_eq_true_eq] at h
  exact h.1

theorem isLive_of_base? (h : s.base? i = some b) : s.isLive b = true :=
  (Option.filter_eq_some_iff.mp h).2

theorem isLive_of_mem_bases (h : b ∈ s.bases i) : s.isLive b = true := by
  rcases List.mem_append.mp h with h | h
  · exact isLive_of_base? (by simpa using h)
  · exact (List.mem_filter.mp h).2

/-- A search along links comes to all classes that they lead to, if it has as many rounds as there
are classes. -/
theorem breadthFirst_of_isLive {next : ClassId → List ClassId}
    (hnext : ∀ i, ∀ j ∈ next i, s.isLive j = true) (i : ClassId) :
    Search.BreadthFirst next i (Search.breadthFirst next s.classes.size i) := by
  have hrange : ∀ i, next i ⊆ List.range s.classes.size := fun i j hj =>
    List.mem_range.mpr (lt_size_of_isLive (hnext i j hj))
  exact Search.breadthFirst_spec hrange (Nat.le_of_eq List.length_range) i

/-- The class has that primary base. -/
def HasBase (s : ClassStore) (i b : ClassId) : Prop := s.base? i = some b

theorem transGen_of_mem_baseChainFrom {n : Nat} {seen : List ClassId}
    (h : j ∈ s.baseChainFrom n seen i) : Relation.TransGen s.HasBase i j := by
  induction n generalizing seen i with
  | zero => cases h
  | succ n ih =>
    unfold baseChainFrom at h
    split at h
    · cases h
    · next b hb =>
      split at h
      · cases h
      · rcases List.mem_cons.mp h with rfl | h
        · exact .single hb
        · exact .head hb (ih h)

/-- The chain does not stop for want of rounds: all classes differ, so these suffice. -/
theorem baseChainFrom_closed {n : Nat} {seen : List ClassId} (hnodup : seen.Nodup)
    (hseen : ∀ j ∈ seen, s.isLive j = true) (hn : s.classes.size ≤ n + seen.length) :
    ∀ j ∈ i :: s.baseChainFrom n seen i, ∀ b, s.HasBase j b →
      b ∈ seen ∨ b ∈ s.baseChainFrom n seen i := by
  induction n generalizing seen i with
  | zero =>
    intro j _ b hb
    have hsub : seen ⊆ List.range s.classes.size := fun k hk =>
      List.mem_range.mpr (lt_size_of_isLive (hseen k hk))
    have hall : List.range s.classes.size ⊆ seen :=
      ((hnodup.subperm hsub).perm_of_length_le (by simpa using hn)).symm.subset
    exact .inl (hall (List.mem_range.mpr (lt_size_of_isLive (isLive_of_base? hb))))
  | succ n ih =>
    intro j hj b hb
    unfold baseChainFrom at hj ⊢
    cases hbase : s.base? i with
    | none =>
      rw [hbase] at hj
      obtain rfl := List.mem_singleton.mp hj
      cases hbase.symm.trans hb
    | some c =>
      rw [hbase] at hj
      dsimp only at hj ⊢
      by_cases hc : c ∈ seen
      · rw [if_pos hc] at hj ⊢
        obtain rfl := List.mem_singleton.mp hj
        obtain rfl := Option.some.inj (hbase.symm.trans hb)
        exact .inl hc
      · rw [if_neg hc] at hj ⊢
        rcases List.mem_cons.mp hj with rfl | hj
        · obtain rfl := Option.some.inj (hbase.symm.trans hb)
          exact .inr List.mem_cons_self
        · have hlive : ∀ k ∈ c :: seen, s.isLive k = true :=
            List.forall_mem_cons.mpr ⟨isLive_of_base? hbase, hseen⟩
          have hrounds : s.classes.size ≤ n + (c :: seen).length := by
            rw [List.length_cons]
            omega
          rcases ih (List.nodup_cons.mpr ⟨hc, hnodup⟩) hlive hrounds j hj b hb with hb | hb
          · rcases List.mem_cons.mp hb with rfl | hb
            · exact .inr List.mem_cons_self
            · exact .inl hb
          · exact .inr (List.mem_cons_of_mem c hb)

theorem mem_baseChain : j ∈ s.baseChain i ↔ Relation.TransGen s.HasBase i j := by
  refine ⟨transGen_of_mem_baseChainFrom, fun h => ?_⟩
  have hclosed : ∀ c ∈ i :: s.baseChain i, ∀ b, s.HasBase c b → b ∈ s.baseChain i := by
    intro c hc b hb
    have hmem := baseChainFrom_closed (s := s) (i := i) List.nodup_nil (by simp)
      (Nat.le_add_right _ _) c hc b hb
    exact hmem.resolve_left List.not_mem_nil
  induction h with
  | single hb => exact hclosed i List.mem_cons_self _ hb
  | tail _ hb ih => exact hclosed _ (List.mem_cons_of_mem i ih) _ hb

theorem inheritsFrom_iff : s.inheritsFrom i j = true ↔
    Relation.TransGen s.HasBase i j ∨ j ∈ s.interfaces i := by
  unfold inheritsFrom
  rw [Bool.or_eq_true, List.contains_iff_mem, List.contains_iff_mem, mem_baseChain]

end BindingModel.Api.ClassStore
