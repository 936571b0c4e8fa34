import BindingModel.Proofs.Graph.Search
import BindingModel.Regex.Basic

/-! What a pattern matches, part by part of the pattern: the search finds these matches and no
others. -/
namespace BindingModel.Regex

/-- The part of the text from one position to another fits the regex. -/
inductive Matches (text : Array Char) : Regex → Nat → Nat → Prop
  | empty (i : Nat) : Matches text empty i i
  | anchor {a : Anchor} {i : Nat} (h : a.holds text i = true) : Matches text (anchor a) i i
  | char {c : Char} {i : Nat} (h : text[i]? = some c) : Matches text (char c) i (i + 1)
  | any {c : Char} {i : Nat} (h : text[i]? = some c) (hc : c ≠ '\n') : Matches text any i (i + 1)
  | oneOf {set : CharSet} {c : Char} {i : Nat} (h : text[i]? = some c)
      (hc : set.contains c = true) : Matches text (oneOf set) i (i + 1)
  | seq {a b : Regex} {i j k : Nat} (ha : Matches text a i j) (hb : Matches text b j k) :
      Matches text (seq a b) i k
  | left {a b : Regex} {i j : Nat} (h : Matches text a i j) : Matches text (alt a b) i j
  | right {a b : Regex} {i j : Nat} (h : Matches text b i j) : Matches text (alt a b) i j
  | stop {a : Regex} (i : Nat) : Matches text (star a) i i
  | more {a : Regex} {i j k : Nat} (ha : Matches text a i j) (h : Matches text (star a) j k) :
      Matches text (star a) i k

variable {text : Array Char} {r a b : Regex} {i j k : Nat} {l : List Nat}

theorem lt_size_of_getElem? {c : Char} (h : text[i]? = some c) : i < text.size := by
  obtain ⟨hi, -⟩ := Array.getElem?_eq_some_iff.mp h
  exact hi

theorem Matches.le_size (h : Matches text r i j) (hi : i ≤ text.size) : j ≤ text.size := by
  induction h with
  | empty | anchor | stop => exact hi
  | char h | any h | oneOf h =>
    have hlt := lt_size_of_getElem? h
    omega
  | seq _ _ iha ihb | more _ _ iha ihb => exact ihb (iha hi)
  | left _ ih | right _ ih => exact ih hi

/-! ### Matches by the form of the regex -/

theorem matches_empty_iff : Matches text empty i j ↔ j = i := by
  constructor
  · intro h
    cases h
    rfl
  · rintro rfl
    exact .empty _

theorem matches_anchor_iff {a : Anchor} :
    Matches text (anchor a) i j ↔ a.holds text i = true ∧ j = i := by
  constructor
  · intro h
    cases h with
    | anchor h => exact ⟨h, rfl⟩
  · rintro ⟨h, rfl⟩
    exact .anchor h

theorem matches_char_iff {c : Char} :
    Matches text (char c) i j ↔ text[i]? = some c ∧ j = i + 1 := by
  constructor
  · intro h
    cases h with
    | char h => exact ⟨h, rfl⟩
  · rintro ⟨h, rfl⟩
    exact .char h

theorem matches_any_iff :
    Matches text any i j ↔ (∃ c, text[i]? = some c ∧ c ≠ '\n') ∧ j = i + 1 := by
  constructor
  · intro h
    cases h with
    | any h hc => exact ⟨⟨_, h, hc⟩, rfl⟩
  · rintro ⟨⟨c, h, hc⟩, rfl⟩
    exact .any h hc

theorem matches_oneOf_iff {set : CharSet} :
    Matches text (oneOf set) i j ↔
      (∃ c, text[i]? = some c ∧ set.contains c = true) ∧ j = i + 1 := by
  constructor
  · intro h
    cases h with
    | oneOf h hc => exact ⟨⟨_, h, hc⟩, rfl⟩
  · rintro ⟨⟨c, h, hc⟩, rfl⟩
    exact .oneOf h hc

theorem matches_seq_iff :
    Matches text (seq a b) i k ↔ ∃ j, Matches text a i j ∧ Matches text b j k := by
  constructor
  · intro h
    cases h with
    | seq ha hb => exact ⟨_, ha, hb⟩
  · rintro ⟨j, ha, hb⟩
    exact .seq ha hb

theorem matches_alt_iff : Matches text (alt a b) i j ↔ Matches text a i j ∨ Matches text b i j := by
  constructor
  · intro h
    cases h with
    | left h => exact .inl h
    | right h => exact .inr h
  · rintro (h | h)
    · exact .left h
    · exact .right h

theorem matches_star_iff :
    Matches text (star a) i j ↔ Relation.ReflTransGen (Matches text a) i j := by
  constructor
  · intro h
    generalize hr : star a = r at h
    induction h with
    | stop => exact .refl
    | more ha _ _ ih =>
      cases hr
      exact (ih rfl).head ha
    | _ => cases hr
  · intro h
    induction h using Relation.ReflTransGen.head_induction_on with
    | refl => exact .stop _
    | head ha _ ih => exact .more ha ih

/-! ### What the search finds -/

theorem mem_advance {fit : Char → Bool} :
    j ∈ advance text fit l ↔ ∃ i ∈ l, (∃ c, text[i]? = some c ∧ fit c = true) ∧ j = i + 1 := by
  unfold advance
  simp only [List.mem_map, List.mem_filter, Option.any_eq_true]
  constructor
  · rintro ⟨i, ⟨hi, hc⟩, rfl⟩
    exact ⟨i, hi, hc, rfl⟩
  · rintro ⟨i, hi, hc, rfl⟩
    exact ⟨i, ⟨hi, hc⟩, rfl⟩

/-- When some position is known, there are as many rounds as the text may have unknown ones. -/
theorem length_unknown_le {n : Nat} (hl : i :: l ⊆ List.range (n + 1)) :
    ((List.range (n + 1)).filter (!(i :: l).contains ·)).length ≤ n := by
  have hlt : ((List.range (n + 1)).filter (!([] ++ i :: l).contains ·)).length <
      ((List.range (n + 1)).filter (!([] : List Nat).contains ·)).length :=
    Search.length_filter_not_contains_lt (hl List.mem_cons_self) List.mem_cons_self
      List.not_mem_nil
  have hall := List.length_filter_le (!([] : List Nat).contains ·) (List.range (n + 1))
  rw [List.length_range] at hall
  rw [List.nil_append] at hlt
  omega

/-- Repetitions end where the ends of one repetition after another lead. -/
theorem mem_ends_star_iff {a : Regex}
    (ih : ∀ {l : List Nat}, (∀ i ∈ l, i ≤ text.size) →
      ∀ j, j ∈ ends text a l ↔ ∃ i ∈ l, Matches text a i j)
    (hl : ∀ i ∈ l, i ≤ text.size) (j : Nat) :
    j ∈ ends text (star a) l ↔ ∃ i ∈ l, Matches text (star a) i j := by
  cases l with
  | nil =>
    have hnone : ends text a [] = [] := by
      rw [List.eq_nil_iff_forall_not_mem]
      intro k hk
      obtain ⟨i, hi, -⟩ := (ih (by simp) k).mp hk
      cases hi
    unfold ends
    cases text.size <;> simp [Search.closure, hnone]
  | cons i₀ l =>
    have hstep : ∀ l' ⊆ List.range (text.size + 1), ∀ j,
        j ∈ ends text a l' ↔ ∃ i ∈ l', Matches text a i j := by
      intro l' hl' j
      apply ih
      intro i hi
      have := List.mem_range.mp (hl' hi)
      omega
    have hU : ∀ i ∈ List.range (text.size + 1), ∀ j, Matches text a i j →
        j ∈ List.range (text.size + 1) := by
      intro i hi j h
      have := h.le_size (Nat.lt_succ_iff.mp (List.mem_range.mp hi))
      exact List.mem_range.mpr (by omega)
    have hsub : i₀ :: l ⊆ List.range (text.size + 1) := by
      intro i hi
      have := hl i hi
      exact List.mem_range.mpr (by omega)
    have hreach := Search.mem_closure_iff hstep hU (List.Subset.refl (i₀ :: l)) hsub
      (fun i hi hout => absurd hi hout) (length_unknown_le hsub) j
    unfold ends
    rw [hreach]
    simp only [matches_star_iff]

/-- Of positions in the text, the search finds where matches that begin there end. -/
theorem mem_ends_iff (hl : ∀ i ∈ l, i ≤ text.size) (j : Nat) :
    j ∈ ends text r l ↔ ∃ i ∈ l, Matches text r i j := by
  induction r generalizing l j with
  | empty => simp [ends, matches_empty_iff]
  | anchor a =>
    simp only [ends, List.mem_filter, matches_anchor_iff]
    constructor
    · rintro ⟨hj, h⟩
      exact ⟨j, hj, h, rfl⟩
    · rintro ⟨i, hi, h, rfl⟩
      exact ⟨hi, h⟩
  | char c => simp [ends, mem_advance, matches_char_iff]
  | any => simp [ends, mem_advance, matches_any_iff]
  | oneOf set => simp [ends, mem_advance, matches_oneOf_iff]
  | seq a b iha ihb =>
    have hmid : ∀ k ∈ ends text a l, k ≤ text.size := by
      intro k hk
      obtain ⟨i, hi, h⟩ := (iha hl k).mp hk
      exact h.le_size (hl i hi)
    simp only [ends, ihb hmid, iha hl, matches_seq_iff]
    constructor
    · rintro ⟨k, ⟨i, hi, ha⟩, hb⟩
      exact ⟨i, hi, k, ha, hb⟩
    · rintro ⟨i, hi, k, ha, hb⟩
      exact ⟨k, ⟨i, hi, ha⟩, hb⟩
  | alt a b iha ihb =>
    simp only [ends, List.mem_eraseDups, List.mem_append, iha hl, ihb hl, matches_alt_iff]
    constructor
    · rintro (⟨i, hi, h⟩ | ⟨i, hi, h⟩)
      · exact ⟨i, hi, .inl h⟩
      · exact ⟨i, hi, .inr h⟩
    · rintro ⟨i, hi, h | h⟩
      · exact .inl ⟨i, hi, h⟩
      · exact .inr ⟨i, hi, h⟩
  | star a ih => exact mem_ends_star_iff ih hl j

/-- A search succeeds if some part of the text fits the regex. -/
theorem occursIn_iff {s : List Char} :
    r.occursIn s = true ↔ ∃ i ≤ s.length, ∃ j, Matches s.toArray r i j := by
  have hl : ∀ i ∈ List.range (s.length + 1), i ≤ s.toArray.size := by
    intro i hi
    have := List.mem_range.mp hi
    simp only [List.size_toArray]
    omega
  have hne : r.occursIn s = true ↔ ∃ j, j ∈ ends s.toArray r (List.range (s.length + 1)) := by
    unfold occursIn
    simp [List.eq_nil_iff_forall_not_mem]
  rw [hne]
  simp only [mem_ends_iff hl, List.mem_range, Nat.lt_succ_iff]
  constructor
  · rintro ⟨j, i, hi, h⟩
    exact ⟨i, hi, j, h⟩
  · rintro ⟨i, hi, j, h⟩
    exact ⟨j, i, hi, h⟩

end BindingModel.Regex
