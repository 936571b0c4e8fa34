import BindingModel.Text.Cut
import Mathlib.Data.List.Infix

/-! Qualified names, cut at the last `::` again and again. -/
namespace BindingModel.Text
variable {m : Char} {ms s a b : List Char} {segs segs' : List String} {name : String}

/-! ### The last occurrence -/

theorem cutLast?_eq_none_iff : cutLast? (m :: ms) s = none ↔ ¬ (m :: ms) <:+: s := by
  induction s with
  | nil => simp [cutLast?]
  | cons c s ih =>
    rw [List.infix_cons_iff, cutLast?]
    cases hcut : cutLast? (m :: ms) s with
    | some cut =>
      have hlater : (m :: ms) <:+: s := by
        by_contra hnone
        rw [ih.mpr hnone] at hcut
        cases hcut
      simp [hlater]
    | none => simp [ih.mp hcut]

theorem cutLast?_append (hb : ¬ (m :: ms) <:+: ms ++ b) (a : List Char) :
    cutLast? (m :: ms) (a ++ (m :: ms) ++ b) = some (a, b) := by
  induction a with
  | nil =>
    have hrest := cutLast?_eq_none_iff.mpr hb
    rw [List.nil_append, List.cons_append, cutLast?, hrest]
    simp
  | cons c a ih =>
    rw [List.cons_append, List.cons_append, cutLast?, ih]

/-! ### Segments -/

theorem qualified_concat (h : segs ≠ []) (s : String) :
    qualified (segs ++ [s]) = qualified segs ++ "::" ++ s := by
  unfold qualified
  induction segs with
  | nil => exact absurd rfl h
  | cons first segs ih =>
    cases segs with
    | nil => rfl
    | cons second segs =>
      have hrest := ih (List.cons_ne_nil _ _)
      rw [List.cons_append] at hrest ⊢
      rw [List.cons_append, joinWith, joinWith, hrest]
      simp only [String.append_assoc]

/-- The segments of a qualified name, whatever its characters: none holds a `::`, and only the first
may begin with a colon. -/
inductive Segmented : List String → String → Prop
  | one {s : String} (hs : ¬ [':', ':'] <:+: s.toList) : Segmented [s] s
  | inside {segs : List String} {outer s : String} (houter : Segmented segs outer)
      (hs : ¬ [':', ':'] <:+: ':' :: s.toList) : Segmented (segs ++ [s]) (outer ++ "::" ++ s)

theorem Segmented.ne_nil (h : Segmented segs name) : segs ≠ [] := by
  cases h <;> simp

theorem Segmented.qualified_eq (h : Segmented segs name) : qualified segs = name := by
  induction h with
  | one => rfl
  | inside houter _ ih => rw [qualified_concat houter.ne_nil, ih]

theorem cutLast?_inside (outer : String) {s : String} (hs : ¬ [':', ':'] <:+: ':' :: s.toList) :
    cutLast? [':', ':'] (outer ++ "::" ++ s).toList = some (outer.toList, s.toList) := by
  rw [String.toList_append, String.toList_append]
  exact cutLast?_append hs outer.toList

theorem Segmented.unique (h : Segmented segs name) (h' : Segmented segs' name) : segs = segs' := by
  induction h generalizing segs' with
  | one hs =>
    cases h' with
    | one => rfl
    | @inside _ outer' _ _ hs' =>
      have hcut := cutLast?_inside outer' hs'
      rw [cutLast?_eq_none_iff.mpr hs] at hcut
      cases hcut
  | @inside segs outer s houter hs ih =>
    have hcut := cutLast?_inside outer hs
    generalize hname : outer ++ "::" ++ s = name at h' hcut
    cases h' with
    | one hs' =>
      rw [cutLast?_eq_none_iff.mpr hs'] at hcut
      cases hcut
    | @inside segs' outer' s' houter' hs' =>
      have hcut' := cutLast?_inside outer' hs'
      rw [hcut, Option.some.injEq, Prod.mk.injEq, String.toList_inj, String.toList_inj] at hcut'
      obtain ⟨rfl, rfl⟩ := hcut'
      rw [ih houter']

end BindingModel.Text
