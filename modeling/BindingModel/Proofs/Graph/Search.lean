import BindingModel.Graph.Search
import Mathlib.Data.List.Perm.Subperm
import Mathlib.Logic.Relation

/-! A search by levels comes to the same as a search with a queue, in the same order: to everything
that links lead to, and to what is nearer first. -/
namespace BindingModel.Search
variable {α : Type}

/-- Some way of so many links leads from `i` to the other. -/
inductive Away (next : α → List α) (i : α) : Nat → α → Prop
  | start : Away next i 0 i
  | link {n : Nat} {j k : α} (h : Away next i n j) (hk : k ∈ next j) : Away next i (n + 1) k

theorem exists_away_iff {next : α → List α} {i j : α} :
    (∃ n, Away next i n j) ↔ Relation.ReflTransGen (fun k l => l ∈ next k) i j := by
  constructor
  · rintro ⟨n, h⟩
    induction h with
    | start => exact .refl
    | link _ hk ih => exact ih.tail hk
  · intro h
    induction h with
    | refl => exact ⟨0, .start⟩
    | tail _ hk ih =>
      obtain ⟨n, hn⟩ := ih
      exact ⟨n + 1, hn.link hk⟩

/-- A search takes the first of a queue. If that was not seen before it is the next in order, and
what is next to it is put behind the others in the queue. -/
inductive Explores (next : α → List α) : (seen queue order : List α) → Prop
  | done {seen : List α} : Explores next seen [] []
  | skip {seen queue order : List α} {i : α} (hi : i ∈ seen) (h : Explores next seen queue order) :
      Explores next seen (i :: queue) order
  | visit {seen queue order : List α} {i : α} (hi : i ∉ seen)
      (h : Explores next (seen ++ [i]) (queue ++ next i) order) :
      Explores next seen (i :: queue) (i :: order)

/-- Whatever links lead to, each once, in the order of a queue: nothing is further away than what
comes after it. -/
structure BreadthFirst (next : α → List α) (i : α) (order : List α) : Prop where
  explores : Explores next [] [i] order
  nodup : order.Nodup
  mem_iff : ∀ j, j ∈ order ↔ ∃ n, Away next i n j
  nearest : order.Pairwise fun j k => ∀ n, Away next i n k → ∃ m ≤ n, Away next i m j

/-! ### Steps from a whole frontier -/

section
variable {R : α → α → Prop} {U : List α}

/-- What is closed under a step from each of its members has all that such steps lead to. -/
theorem mem_iff_of_closed {l : List α} (h : ∀ i ∈ l, ∀ j, R i j → j ∈ l) (j : α) :
    j ∈ l ↔ ∃ i ∈ l, Relation.ReflTransGen R i j := by
  constructor
  · intro hj
    exact ⟨j, hj, .refl⟩
  · rintro ⟨i, hi, hij⟩
    induction hij with
    | refl => exact hi
    | tail _ hjk ih => exact h _ ih _ hjk

variable [BEq α] [LawfulBEq α] {step : List α → List α}

theorem length_filter_not_contains_lt {reached new : List α} {i : α} (hi : i ∈ U)
    (hin : i ∈ new) (hout : i ∉ reached) :
    (U.filter (!(reached ++ new).contains ·)).length <
      (U.filter (!reached.contains ·)).length := by
  have hsplit : U.filter (!(reached ++ new).contains ·) =
      (U.filter (!reached.contains ·)).filter (!new.contains ·) := by
    rw [List.filter_filter]
    apply List.filter_congr
    intro j _
    by_cases hj : j ∈ reached <;> by_cases hjn : j ∈ new <;> simp [hj, hjn]
  rw [hsplit]
  apply List.length_filter_lt_length_iff_exists.mpr
  exact ⟨i, by simpa [hi] using hout, by simpa using hin⟩

/-- A step finds what `R` leads to, and only the frontier is not yet closed under it. Then as many
rounds as there are things not reached suffice to reach everything. -/
theorem mem_closure_iff (hstep : ∀ l ⊆ U, ∀ j, j ∈ step l ↔ ∃ i ∈ l, R i j)
    (hU : ∀ i ∈ U, ∀ j, R i j → j ∈ U) {n : Nat} {frontier reached : List α}
    (hfrontier : frontier ⊆ reached) (hreached : reached ⊆ U)
    (hdone : ∀ i ∈ reached, i ∉ frontier → ∀ j, R i j → j ∈ reached)
    (hn : (U.filter (!reached.contains ·)).length ≤ n) (j : α) :
    j ∈ closure step n frontier reached ↔ ∃ i ∈ reached, Relation.ReflTransGen R i j := by
  induction n generalizing frontier reached with
  | zero =>
    have hall : ∀ k ∈ U, k ∈ reached := by
      have hnil := List.eq_nil_of_length_eq_zero (Nat.le_zero.mp hn)
      simpa [List.filter_eq_nil_iff] using hnil
    exact mem_iff_of_closed (fun i hi k hik => hall k (hU i (hreached hi) k hik)) j
  | succ n ih =>
    have hmem : ∀ k, k ∈ (step frontier).filter (!reached.contains ·) ↔
        (∃ i ∈ frontier, R i k) ∧ k ∉ reached := by
      intro k
      rw [List.mem_filter, hstep frontier (List.Subset.trans hfrontier hreached)]
      simp
    unfold closure
    dsimp only
    generalize (step frontier).filter (!reached.contains ·) = new at hmem
    have hclosed : ∀ i ∈ reached, ∀ k, R i k → k ∈ reached ++ new := by
      intro i hi k hik
      by_cases hk : k ∈ reached
      · exact List.mem_append_left _ hk
      · by_cases hif : i ∈ frontier
        · exact List.mem_append_right _ ((hmem k).mpr ⟨⟨i, hif, hik⟩, hk⟩)
        · exact absurd (hdone i hi hif k hik) hk
    cases new with
    | nil =>
      rw [List.append_nil] at hclosed
      exact mem_iff_of_closed hclosed j
    | cons a l =>
      have hsub : a :: l ⊆ U := by
        intro k hk
        obtain ⟨⟨i, hi, hik⟩, -⟩ := (hmem k).mp hk
        exact hU i (hreached (hfrontier hi)) k hik
      have ha : a ∈ a :: l := List.mem_cons_self
      have hfewer := length_filter_not_contains_lt (hsub ha) ha ((hmem a).mp ha).2
      have hrest := ih (List.subset_append_right reached _)
        (List.append_subset.mpr ⟨hreached, hsub⟩)
        (fun i hi hin => hclosed i ((List.mem_append.mp hi).resolve_right hin)) (by omega)
      rw [List.isEmpty_cons, if_neg Bool.false_ne_true, hrest]
      constructor
      · rintro ⟨i, hi, hij⟩
        rcases List.mem_append.mp hi with hi | hi
        · exact ⟨i, hi, hij⟩
        · obtain ⟨⟨k, hk, hki⟩, -⟩ := (hmem i).mp hi
          exact ⟨k, hfrontier hk, hij.head hki⟩
      · rintro ⟨i, hi, hij⟩
        exact ⟨i, List.mem_append_left _ hi, hij⟩

end

/-! ### Searches that do not know what they have seen -/

section
variable {next : α → List α} {seen order : List α}

/-- The first `n` things that are taken from a queue to which whatever is next to them is added,
seen before or not. -/
def taken (next : α → List α) : (n : Nat) → (queue : List α) → List α
  | 0, _ | _, [] => []
  | n + 1, i :: queue => i :: taken next n (queue ++ next i)

theorem Explores.skip_all {queue : List α} (h : Explores next seen queue order) {extra : List α}
    (hextra : ∀ j ∈ extra, j ∈ seen) : Explores next seen (extra ++ queue) order := by
  induction extra with
  | nil => exact h
  | cons i extra ih =>
    obtain ⟨hi, hextra⟩ := List.forall_mem_cons.mp hextra
    exact .skip hi (ih hextra)

/-- It makes no difference to a search what is put into the queue behind something equal. -/
theorem Explores.insert {before after : List α} (h : Explores next seen (before ++ after) order)
    {extra : List α} (hextra : ∀ j ∈ extra, j ∈ seen ∨ j ∈ before) :
    Explores next seen (before ++ (extra ++ after)) order := by
  generalize hqueue : before ++ after = queue at h
  induction h generalizing before after with
  | done =>
    obtain ⟨rfl, rfl⟩ := List.append_eq_nil_iff.mp hqueue
    exact Explores.done.skip_all fun j hj => (hextra j hj).resolve_right List.not_mem_nil
  | @skip seen queue order i hi hrest ih =>
    cases before with
    | nil =>
      obtain rfl : after = i :: queue := hqueue
      exact (Explores.skip hi hrest).skip_all
        fun j hj => (hextra j hj).resolve_right List.not_mem_nil
    | cons b before =>
      obtain ⟨rfl, rfl⟩ := List.cons.inj hqueue
      refine .skip hi (ih (fun j hj => ?_) rfl)
      rcases hextra j hj with hj | hj
      · exact .inl hj
      · rcases List.mem_cons.mp hj with rfl | hj
        · exact .inl hi
        · exact .inr hj
  | @visit seen queue order i hi hrest ih =>
    cases before with
    | nil =>
      obtain rfl : after = i :: queue := hqueue
      exact (Explores.visit hi hrest).skip_all
        fun j hj => (hextra j hj).resolve_right List.not_mem_nil
    | cons b before =>
      obtain ⟨rfl, rfl⟩ := List.cons.inj hqueue
      have hqueue : Explores next (seen ++ [b]) (before ++ (extra ++ (after ++ next b))) order := by
        refine ih (fun j hj => ?_) (List.append_assoc _ _ _).symm
        rcases hextra j hj with hj | hj
        · exact .inl (List.mem_append_left _ hj)
        · rcases List.mem_cons.mp hj with rfl | hj
          · exact .inl (List.mem_append_right _ (List.mem_singleton_self _))
          · exact .inr hj
      exact .visit hi (by simpa using hqueue)

variable {β : Type} {next' : α → List α} {g : α → Option β}

/-- What a search that does not know what it has seen finds first is what one that does finds first.
It goes on from what it has seen to nothing but what stands before in the queue or was seen too. -/
theorem Explores.findSome?_taken {queue : List α} (h : Explores next seen queue order)
    (hsame : ∀ j, j ∉ seen → next' j = next j) (hsub : ∀ j, next' j ⊆ next j)
    (hcovered : ∀ j ∈ seen, ∀ k ∈ next j, k ∈ seen ∨ k ∈ queue)
    (hnone : ∀ j ∈ seen, g j = none) (n : Nat) :
    (taken next' n queue).findSome? g = none ∨
      (taken next' n queue).findSome? g = order.findSome? g := by
  induction n generalizing seen queue order with
  | zero => exact .inl rfl
  | succ n ih =>
    cases h with
    | done => exact .inr rfl
    | @skip _ queue _ i hi hrest =>
      have htail : ∀ j ∈ seen, ∀ k ∈ next j, k ∈ seen ∨ k ∈ queue := by
        intro j hj k hk
        rcases hcovered j hj k hk with hk | hk
        · exact .inl hk
        · rcases List.mem_cons.mp hk with rfl | hk
          · exact .inl hi
          · exact .inr hk
      have hqueue : Explores next seen (queue ++ next' i) order := by
        have hinserted : Explores next seen (queue ++ (next' i ++ [])) order :=
          Explores.insert (by simpa using hrest) fun k hk => htail i hi k (hsub i hk)
        simpa using hinserted
      unfold taken
      rw [List.findSome?_cons, hnone i hi]
      exact ih hqueue hsame (fun j hj k hk => (htail j hj k hk).imp_right
        (List.mem_append_left _)) hnone
    | @visit _ queue order i hi hrest =>
      unfold taken
      rw [List.findSome?_cons, List.findSome?_cons, hsame i hi]
      cases hg : g i with
      | some b => exact .inr rfl
      | none =>
        refine ih hrest (fun j hj => hsame j fun h => hj (List.mem_append_left _ h))
          (fun j hj k hk => ?_) fun j hj => ?_
        · rcases List.mem_append.mp hj with hj | hj
          · rcases hcovered j hj k hk with hk | hk
            · exact .inl (List.mem_append_left _ hk)
            · rcases List.mem_cons.mp hk with rfl | hk
              · exact .inl (List.mem_append_right _ (List.mem_singleton_self _))
              · exact .inr (List.mem_append_left _ hk)
          · obtain rfl := List.mem_singleton.mp hj
            exact .inr (List.mem_append_right _ hk)
        · rcases List.mem_append.mp hj with hj | hj
          · exact hnone j hj
          · obtain rfl := List.mem_singleton.mp hj
            exact hg

end

variable [BEq α] [LawfulBEq α]

/-! ### Levels -/

/-- What was not seen before, each once. -/
def fresh (seen l : List α) : List α := l.eraseDups.filter (!seen.contains ·)

theorem filter_eraseDups (p : α → Bool) : (l : List α) →
    l.eraseDups.filter p = (l.filter p).eraseDups
  | [] => rfl
  | a :: l => by
    rw [List.eraseDups_cons, List.filter_cons, filter_eraseDups p (l.filter _), List.filter_filter]
    by_cases ha : p a
    · rw [if_pos ha, List.filter_cons_of_pos ha, List.eraseDups_cons, List.filter_filter]
      simp only [Bool.and_comm]
    · rw [if_neg ha, List.filter_cons_of_neg ha]
      congr 1
      refine List.filter_congr fun b _ => ?_
      by_cases hb : b = a
      · subst hb
        simp [ha]
      · simp [hb]
termination_by l => l.length
decreasing_by exact Nat.lt_succ_of_le (List.length_filter_le _ _)

theorem nodup_eraseDups : (l : List α) → l.eraseDups.Nodup
  | [] => List.nodup_nil
  | a :: l => by
    rw [List.eraseDups_cons, List.nodup_cons]
    exact ⟨by simp, nodup_eraseDups (l.filter _)⟩
termination_by l => l.length
decreasing_by exact Nat.lt_succ_of_le (List.length_filter_le _ _)

theorem eraseDups_concat (l : List α) (a : α) :
    (l ++ [a]).eraseDups = if a ∈ l then l.eraseDups else l.eraseDups ++ [a] := by
  rw [List.eraseDups_append]
  by_cases ha : a ∈ l <;> simp [ha, List.removeAll, List.eraseDups_cons]

section
variable {seen l : List α} {i : α}

theorem mem_fresh {j : α} : j ∈ fresh seen l ↔ j ∈ l ∧ j ∉ seen := by
  simp [fresh]

theorem nodup_fresh : (fresh seen l).Nodup := (nodup_eraseDups l).filter _

theorem fresh_cons_of_mem (hi : i ∈ seen) : fresh seen (i :: l) = fresh seen l := by
  unfold fresh
  rw [filter_eraseDups, filter_eraseDups, List.filter_cons_of_neg (by simp [hi])]

theorem fresh_cons_of_not_mem (hi : i ∉ seen) :
    fresh seen (i :: l) = i :: fresh (seen ++ [i]) l := by
  unfold fresh
  rw [List.eraseDups_cons, List.filter_cons_of_pos (by simp [hi]), filter_eraseDups,
    filter_eraseDups, List.filter_filter]
  congr 3
  funext b
  by_cases hb : b = i <;> simp [hb]

end

variable {next : α → List α}

/-- The queue comes to all that is new in it before it comes to what is next to that. -/
theorem Explores.level {seen queue rest order : List α}
    (h : Explores next (seen ++ fresh seen queue) (rest ++ (fresh seen queue).flatMap next) order) :
    Explores next seen (queue ++ rest) (fresh seen queue ++ order) := by
  induction queue generalizing seen rest with
  | nil => simpa [fresh] using h
  | cons i queue ih =>
    by_cases hi : i ∈ seen
    · rw [fresh_cons_of_mem hi] at h ⊢
      exact .skip hi (ih h)
    · rw [fresh_cons_of_not_mem hi] at h ⊢
      have hrest : Explores next (seen ++ [i]) (queue ++ (rest ++ next i))
          (fresh (seen ++ [i]) queue ++ order) := ih (by simpa using h)
      refine .visit hi ?_
      rwa [← List.append_assoc] at hrest

/-- Where nothing new is in the queue, nothing is left to explore. -/
theorem Explores.level_last {reached frontier : List α}
    (hnone : fresh reached (frontier.flatMap next) = []) :
    Explores next reached (frontier.flatMap next) [] := by
  have hqueue : Explores next reached (frontier.flatMap next ++ [])
      (fresh reached (frontier.flatMap next) ++ []) := by
    refine Explores.level ?_
    rw [hnone]
    exact .done
  rwa [hnone, List.append_nil] at hqueue

/-- What is at most `n` links away was reached, and the frontier is what is no nearer. -/
structure Level (next : α → List α) (i : α) (n : Nat) (frontier reached : List α) : Prop where
  mem_reached : ∀ j, j ∈ reached ↔ ∃ m ≤ n, Away next i m j
  mem_frontier : ∀ j, j ∈ frontier ↔ Away next i n j ∧ ∀ m < n, ¬ Away next i m j
  nodup : reached.Nodup
  nearest : reached.Pairwise fun j k => ∀ n, Away next i n k → ∃ m ≤ n, Away next i m j

namespace Level
variable {i : α} {n : Nat} {frontier reached : List α}

omit [BEq α] [LawfulBEq α] in
theorem start (next : α → List α) (i : α) : Level next i 0 [i] [i] := by
  have hzero : ∀ j, j = i ↔ Away next i 0 j := by
    intro j
    constructor
    · rintro rfl
      exact .start
    · intro h
      cases h
      rfl
  refine ⟨fun j => ?_, fun j => ?_, by simp, List.pairwise_singleton _ i⟩
  · simp [hzero]
  · simp [hzero]

/-- What is new next to the frontier is one link further away. -/
theorem mem_fresh_iff (h : Level next i n frontier reached) (j : α) :
    j ∈ fresh reached (frontier.flatMap next) ↔
      Away next i (n + 1) j ∧ ∀ m < n + 1, ¬ Away next i m j := by
  have hnew : j ∉ reached ↔ ∀ m < n + 1, ¬ Away next i m j := by
    rw [h.mem_reached]
    simp only [not_exists, not_and, Nat.lt_succ_iff]
  rw [mem_fresh, hnew, List.mem_flatMap]
  constructor
  · rintro ⟨⟨k, hk, hj⟩, hout⟩
    exact ⟨.link ((h.mem_frontier k).mp hk).1 hj, hout⟩
  · rintro ⟨haway, hout⟩
    refine ⟨?_, hout⟩
    cases haway with
    | @link _ k _ hk hj =>
      refine ⟨k, (h.mem_frontier k).mpr ⟨hk, fun m hm hkm => ?_⟩, hj⟩
      exact hout (m + 1) (by omega) (.link hkm hj)

theorem succ (h : Level next i n frontier reached) :
    Level next i (n + 1) (fresh reached (frontier.flatMap next))
      (reached ++ fresh reached (frontier.flatMap next)) := by
  refine ⟨fun j => ?_, h.mem_fresh_iff, ?_, ?_⟩
  · rw [List.mem_append, h.mem_fresh_iff, h.mem_reached]
    constructor
    · rintro (⟨m, hm, hj⟩ | ⟨hj, -⟩)
      · exact ⟨m, by omega, hj⟩
      · exact ⟨n + 1, Nat.le_refl _, hj⟩
    · rintro ⟨m, hm, hj⟩
      by_cases hnear : ∃ m < n + 1, Away next i m j
      · obtain ⟨m, hm, hj⟩ := hnear
        exact .inl ⟨m, by omega, hj⟩
      · have hout : ∀ m < n + 1, ¬ Away next i m j := by simpa using hnear
        have hmn : m = n + 1 := by
          by_contra hne
          exact hout m (by omega) hj
        subst hmn
        exact .inr ⟨hj, hout⟩
  · refine List.nodup_append.mpr ⟨h.nodup, nodup_fresh, fun j hj k hk => ?_⟩
    rintro rfl
    exact (mem_fresh.mp hk).2 hj
  · refine List.pairwise_append.mpr ⟨h.nearest, ?_, fun j hj k hk m hm => ?_⟩
    · refine List.pairwise_of_forall_mem_list fun j hj k hk m hm => ⟨n + 1, ?_, ?_⟩
      · have hfar := ((h.mem_fresh_iff k).mp hk).2 m
        by_contra hlt
        exact hfar (by omega) hm
      · exact ((h.mem_fresh_iff j).mp hj).1
    · obtain ⟨d, hd, haway⟩ := (h.mem_reached j).mp hj
      have hfar := ((h.mem_fresh_iff k).mp hk).2 m
      refine ⟨d, ?_, haway⟩
      by_contra hlt
      exact hfar (by omega) hm

/-- Where nothing new is next to the frontier, everything was reached. -/
theorem closed (h : Level next i n frontier reached)
    (hnone : fresh reached (frontier.flatMap next) = []) {m : Nat} {j : α}
    (hj : Away next i m j) : j ∈ reached := by
  induction hj with
  | start => exact (h.mem_reached i).mpr ⟨0, Nat.zero_le n, .start⟩
  | @link m j k _ hk ih =>
    obtain ⟨d, hd, hj⟩ := (h.mem_reached j).mp ih
    by_contra hout
    have hfar : ∀ m < n + 1, ¬ Away next i m k := by
      intro m hm hkm
      exact hout ((h.mem_reached k).mpr ⟨m, by omega, hkm⟩)
    have hdn : d = n := by
      by_contra hne
      exact hfar (d + 1) (by omega) (.link hj hk)
    subst hdn
    have hmem := (h.mem_fresh_iff k).mpr ⟨.link hj hk, hfar⟩
    rw [hnone] at hmem
    cases hmem

end Level

/-! ### The search by levels -/

omit [LawfulBEq α] in
theorem closure_succ (n : Nat) (frontier reached : List α) :
    closure (fun l => (l.flatMap next).eraseDups) (n + 1) frontier reached =
      if (fresh reached (frontier.flatMap next)).isEmpty then reached
      else closure (fun l => (l.flatMap next).eraseDups) n (fresh reached (frontier.flatMap next))
        (reached ++ fresh reached (frontier.flatMap next)) :=
  rfl

variable {U : List α} (hU : ∀ i, next i ⊆ U)
include hU

/-- As many rounds as there are things left suffice: each reaches one more, or is the last. -/
theorem closure_explores {i : α} {n d : Nat} {frontier reached : List α}
    (h : Level next i d frontier reached) (hsub : reached ⊆ U)
    (hn : U.length ≤ n + reached.length) :
    ∃ order, closure (fun l => (l.flatMap next).eraseDups) n frontier reached = reached ++ order ∧
      Explores next reached (frontier.flatMap next) order ∧
      ∃ d frontier, Level next i d frontier (reached ++ order) ∧
        fresh (reached ++ order) (frontier.flatMap next) = [] := by
  have hnext : ∀ l : List α, l.flatMap next ⊆ U := by
    intro l j hj
    obtain ⟨k, -, hk⟩ := List.mem_flatMap.mp hj
    exact hU k hk
  induction n generalizing d frontier reached with
  | zero =>
    have hall : U ⊆ reached :=
      ((h.nodup.subperm hsub).perm_of_length_le (by omega)).symm.subset
    have hnone : fresh reached (frontier.flatMap next) = [] := by
      rw [List.eq_nil_iff_forall_not_mem]
      intro j hj
      obtain ⟨hj, hout⟩ := mem_fresh.mp hj
      exact hout (hall (hnext _ hj))
    refine ⟨[], (List.append_nil _).symm, .level_last hnone, d, frontier, ?_⟩
    rw [List.append_nil]
    exact ⟨h, hnone⟩
  | succ n ih =>
    rw [closure_succ]
    by_cases hnone : fresh reached (frontier.flatMap next) = []
    · rw [if_pos (by simp [hnone])]
      refine ⟨[], (List.append_nil _).symm, .level_last hnone, d, frontier, ?_⟩
      rw [List.append_nil]
      exact ⟨h, hnone⟩
    · rw [if_neg (by simpa using hnone)]
      have hpos : 0 < (fresh reached (frontier.flatMap next)).length :=
        List.length_pos_iff.mpr hnone
      have hfresh : fresh reached (frontier.flatMap next) ⊆ U :=
        fun j hj => hnext _ (mem_fresh.mp hj).1
      obtain ⟨order, horder, hexplores, hclosed⟩ := ih h.succ
        (List.append_subset.mpr ⟨hsub, hfresh⟩) (by rw [List.length_append]; omega)
      refine ⟨fresh reached (frontier.flatMap next) ++ order, ?_, ?_, ?_⟩
      · rw [horder, List.append_assoc]
      · have hqueue : Explores next reached (frontier.flatMap next ++ [])
            (fresh reached (frontier.flatMap next) ++ order) := .level hexplores
        rwa [List.append_nil] at hqueue
      · rwa [← List.append_assoc]

/-- A search with as many rounds as there are things that links lead to comes to all of them. -/
theorem breadthFirst_spec {n : Nat} (hn : U.length ≤ n) (i : α) :
    BreadthFirst next i (breadthFirst next n i) := by
  have hU' : ∀ j, next j ⊆ i :: U := fun j _ hk => List.mem_cons_of_mem i (hU j hk)
  obtain ⟨order, horder, hexplores, d, frontier, hlevel, hnone⟩ :=
    closure_explores hU' (n := n) (Level.start next i) (by simp) (by simpa using hn)
  have hqueue : Explores next ([] ++ [i]) ([] ++ next i) order := by simpa using hexplores
  unfold breadthFirst
  rw [horder]
  refine ⟨.visit List.not_mem_nil hqueue, hlevel.nodup, fun j => ?_, hlevel.nearest⟩
  constructor
  · intro hj
    obtain ⟨m, -, haway⟩ := (hlevel.mem_reached j).mp hj
    exact ⟨m, haway⟩
  · rintro ⟨m, haway⟩
    exact hlevel.closed hnone haway

end BindingModel.Search
