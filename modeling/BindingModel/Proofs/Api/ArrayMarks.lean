import BindingModel.Api.Substitution
import BindingModel.Proofs.Error
import Mathlib.Logic.Function.Iterate
import Mathlib.Logic.Relation

/-! Types that are marked as arrays. A mark keeps the indirections, so that nothing stops a second one,
and each puts one more element around those that are there. -/
namespace BindingModel.Api.BoundType
variable {t u e : BoundType} {n last : Nat}

/-- How many elements are inside each other. -/
def depth : BoundType → Nat
  | ⟨_, _, _, _, _, _, none, _, _, _, _⟩ => 0
  | ⟨_, _, _, _, _, _, some element, _, _, _, _⟩ => element.depth + 1

theorem depth_of_element?_eq_none (h : t.element? = none) : t.depth = 0 := by
  cases t
  subst h
  rfl

theorem depth_of_element?_eq_some (h : t.element? = some e) : t.depth = e.depth + 1 := by
  cases t
  subst h
  rfl

theorem depth_eq_zero_iff : t.depth = 0 ↔ t.element? = none := by
  cases h : t.element? with
  | none => simp [depth_of_element?_eq_none h]
  | some e => simp [depth_of_element?_eq_some h]

/-- What the type points to. -/
def pointee (t : BoundType) : BoundType :=
  decided { t with pointers := t.pointers - 1, ref := .none }

/-- The type with one more mark. What is no pointer cannot be marked. -/
def marked (t : BoundType) : BoundType :=
  if t.pointers = 0 then t
  else { t with element? := some t.pointee, count? := none, usage := .nativePointerAsArray }

theorem asArray_eq_ok_iff : t.asArray = .ok u ↔ t.pointers ≠ 0 ∧ u = t.marked := by
  unfold asArray marked
  split
  · next hnone => simp [hnone]
  · next hpointer =>
    rw [Except.ok.injEq, and_iff_right hpointer, eq_comm]
    rfl

theorem marked_of_asArray_error {err : Error} (h : t.asArray = .error err) : t.marked = t := by
  unfold asArray at h
  split at h
  · next hnone => exact if_pos hnone
  · cases h

theorem depth_pointee (t : BoundType) : t.pointee.depth = t.depth := by
  have hsame : t.pointee.element? = t.element? := rfl
  cases helement : t.element? with
  | none => rw [depth_of_element?_eq_none helement, depth_of_element?_eq_none (hsame.trans helement)]
  | some e =>
    rw [depth_of_element?_eq_some helement, depth_of_element?_eq_some (hsame.trans helement)]

/-- The type has no mark: it is no array, or one that is declared with dimensions. -/
structure Unmarked (t : BoundType) : Prop where
  usage : t.usage ≠ .nativePointerAsArray
  element : t.element? = none ∨ t.pointers = 0 ∧ t.entry.ordinal? = none

theorem usageOf_ne (entry : Entry) (pointers : Nat) :
    usageOf entry pointers ≠ .nativePointerAsArray := by
  unfold usageOf
  dsimp only
  repeat' split
  all_goals exact fun h => by cases h

theorem usage_decided_ne (t : BoundType) : t.decided.usage ≠ .nativePointerAsArray := by
  unfold decided
  dsimp only
  split
  · exact fun h => by cases h
  · exact usageOf_ne _ _

theorem unmarked_decided (h : t.element? = none ∨ t.pointers = 0 ∧ t.entry.ordinal? = none) :
    t.decided.Unmarked :=
  ⟨usage_decided_ne t, h⟩

/-- How often a type was marked in all, and how often since placeholders in it were replaced. -/
inductive MarkedTimes : Nat → Nat → BoundType → Prop
  | unmarked {t : BoundType} (h : t.Unmarked) : MarkedTimes 0 0 t
  | mark {n last : Nat} {t u : BoundType} (h : MarkedTimes n last t) (hu : t.asArray = .ok u) :
      MarkedTimes (n + 1) (last + 1) u
  | substitute {n last : Nat} {t u : BoundType} {bindings : List BoundType} {maxDepth : Nat}
      (h : MarkedTimes n last t) (hu : t.instantiate bindings maxDepth = .ok u) :
      MarkedTimes n 0 u

/-- Placeholders in the arguments of a type are replaced, in each by the same bindings. -/
def ArgsReplaced (args args' : List BoundType) : Prop :=
  ∃ bindings m, args.mapM (instantiateAt bindings m) = .ok args'

/-- An array in the place of a pointer: the element is behind one indirection less, and as many
elements are inside each other as there are marks. It has the arguments of the type, up to
placeholders that were replaced after the last mark. -/
structure IsArrayOf (n last : Nat) (t e : BoundType) : Prop where
  entry : e.entry = t.entry
  args : Relation.ReflTransGen ArgsReplaced e.args t.args
  sameArgs : last ≠ 0 → e.args = t.args
  isConst : e.isConst = t.isConst
  isVolatile : e.isVolatile = t.isVolatile
  pointers : e.pointers + 1 = t.pointers
  ref : e.ref = .none
  depth : e.depth + 1 = n

namespace IsArrayOf

/-- An array is made once exactly if its element is none itself. -/
theorem element?_eq_none_iff (h : IsArrayOf n last t e) : e.element? = none ↔ n = 1 := by
  rw [← depth_eq_zero_iff, ← h.depth]
  omega

end IsArrayOf

theorem isArrayOf_marked (hpointer : t.pointers ≠ 0) (last : Nat) :
    t.marked.usage = .nativePointerAsArray ∧ t.marked.element? = some t.pointee ∧
      IsArrayOf (t.depth + 1) last t.marked t.pointee := by
  unfold marked
  rw [if_neg hpointer]
  exact ⟨rfl, rfl, rfl, .refl, fun _ => rfl, rfl, rfl, Nat.succ_pred hpointer, rfl,
    congrArg (· + 1) (depth_pointee t)⟩

/-- What replacing placeholders does to the outermost level of a type: arrays stay as they are, and
what is marked is no placeholder afterwards. -/
structure Substituted (t u : BoundType) : Prop where
  element? : u.element? = t.element?
  pointers : t.pointers ≤ u.pointers
  same : t.entry.ordinal? = none ∨ u.usage = .nativePointerAsArray →
    u = { t with args := u.args, template? := u.template? } ∧ ArgsReplaced t.args u.args

theorem substituted_of_instantiateAt {bindings : List BoundType} {m : Nat}
    (h : instantiateAt bindings m t = .ok u) : Substituted t u := by
  induction m generalizing t u with
  | zero => cases h
  | succ m ih =>
    unfold instantiateAt at h
    split at h
    · next k hplaceholder =>
      split at h
      · cases h
      · next arg harg =>
        split at h
        · cases h
        · obtain ⟨helement, hpointers, hsame⟩ := ih h
          refine ⟨helement, Nat.le_trans (Nat.le_add_right _ _) hpointers, fun hor => ?_⟩
          rcases hor with hnone | hmarked
          · rw [hplaceholder] at hnone
            cases hnone
          · have hdecided := congrArg BoundType.usage (hsame (.inr hmarked)).1
            exact absurd (hdecided.symm.trans hmarked) (usage_decided_ne _)
    · next hentry =>
      split at h
      · next hempty =>
        cases h
        refine ⟨rfl, Nat.le_refl _, fun _ => ⟨by cases t; rfl, bindings, m, ?_⟩⟩
        rw [List.isEmpty_iff.mp hempty]
        rfl
      · obtain ⟨args, hargs, h⟩ := Error.bind_eq_ok h
        cases h
        exact ⟨rfl, Nat.le_refl _, fun _ => ⟨rfl, bindings, m, hargs⟩⟩

namespace MarkedTimes

theorem last_le (h : MarkedTimes n last t) : last ≤ n := by
  induction h with
  | unmarked => exact Nat.le_refl 0
  | mark _ _ ih => exact Nat.succ_le_succ ih
  | substitute => exact Nat.zero_le _

/-- No mark leaves a type as it was bound; with marks it is a pointer with as many elements. -/
theorem depth_eq (h : MarkedTimes n last t) :
    n = 0 ∧ t.Unmarked ∨ n ≠ 0 ∧ t.pointers ≠ 0 ∧ t.depth = n := by
  induction h with
  | unmarked h => exact .inl ⟨rfl, h⟩
  | @mark n last t u _ hu ih =>
    obtain ⟨hpointer, rfl⟩ := asArray_eq_ok_iff.mp hu
    obtain ⟨-, helement, harray⟩ := isArrayOf_marked hpointer (last + 1)
    refine .inr ⟨Nat.succ_ne_zero n, ?_, ?_⟩
    · rw [← harray.pointers]
      exact Nat.succ_ne_zero _
    · rw [depth_of_element?_eq_some helement, harray.depth]
      rcases ih with ⟨rfl, hunmarked⟩ | ⟨-, -, hdepth⟩
      · have hnone := hunmarked.element.resolve_right fun h => hpointer h.1
        rw [depth_of_element?_eq_none hnone]
      · rw [hdepth]
  | @substitute n last t u bindings maxDepth _ hu ih =>
    obtain ⟨helement, hpointers, hsame⟩ := substituted_of_instantiateAt hu
    rcases ih with ⟨rfl, hunmarked⟩ | ⟨hn, hpointer, hdepth⟩
    · refine .inl ⟨rfl, fun husage => ?_, ?_⟩
      · rw [(hsame (.inr husage)).1] at husage
        exact hunmarked.usage husage
      · rcases hunmarked.element with hnone | ⟨hzero, hentry⟩
        · exact .inl (helement.trans hnone)
        · rw [(hsame (.inl hentry)).1]
          exact .inr ⟨hzero, hentry⟩
    · refine .inr ⟨hn, fun hzero => hpointer (Nat.eq_zero_of_le_zero (hzero ▸ hpointers)), ?_⟩
      cases hsome : t.element? with
      | none =>
        rw [depth_of_element?_eq_none (helement.trans hsome), ← hdepth,
          depth_of_element?_eq_none hsome]
      | some e =>
        rw [depth_of_element?_eq_some (helement.trans hsome), ← hdepth,
          depth_of_element?_eq_some hsome]

/-- What is used as an array was marked, and is one whose elements nest as deep as there are marks. -/
theorem isArrayOf (h : MarkedTimes n last t) (husage : t.usage = .nativePointerAsArray) :
    ∃ e, t.element? = some e ∧ IsArrayOf n last t e := by
  induction h with
  | unmarked h => exact absurd husage h.usage
  | @mark n last t u h hu =>
    obtain ⟨hzero, -⟩ | ⟨-, -, hdepth⟩ := (h.mark hu).depth_eq
    · cases hzero
    · obtain ⟨hpointer, rfl⟩ := asArray_eq_ok_iff.mp hu
      obtain ⟨-, helement, harray⟩ := isArrayOf_marked hpointer (last + 1)
      refine ⟨_, helement, ?_⟩
      rw [depth_of_element?_eq_some helement, harray.depth] at hdepth
      exact hdepth ▸ harray
  | @substitute n last t u bindings maxDepth h hu ih =>
    obtain ⟨-, -, hsame⟩ := substituted_of_instantiateAt hu
    obtain ⟨hsame, hreplaced⟩ := hsame (.inr husage)
    rw [hsame] at husage
    obtain ⟨e, helement, harray⟩ := ih husage
    rw [hsame]
    exact ⟨e, helement, harray.entry, harray.args.tail hreplaced, fun h => absurd rfl h,
      harray.isConst, harray.isVolatile, harray.pointers, harray.ref, harray.depth⟩

end MarkedTimes

/-- What is used as an array after so many marks was marked, its element is behind one indirection
less, and that is no array itself exactly if there was one mark. -/
def ArrayAfter (n last : Nat) (t : BoundType) : Prop :=
  t.usage = .nativePointerAsArray → n ≠ 0 ∧
    ∃ e, t.element? = some e ∧ IsArrayOf n last t e ∧ (e.element? = none ↔ n = 1)

theorem MarkedTimes.arrayAfter (h : MarkedTimes n last t) : ArrayAfter n last t := by
  intro husage
  obtain ⟨e, helement, harray⟩ := h.isArrayOf husage
  exact ⟨harray.depth ▸ Nat.succ_ne_zero e.depth, e, helement, harray, harray.element?_eq_none_iff⟩

/-! ### Marks in a row -/

theorem pointers_marked (t : BoundType) : t.marked.pointers = t.pointers := by
  unfold marked
  split <;> rfl

theorem iterate_marked_of_pointers (h : t.pointers = 0) (n : Nat) : marked^[n] t = t := by
  have hfixed : t.marked = t := if_pos h
  exact Function.iterate_fixed hfixed n

theorem MarkedTimes.iterate {m : Nat} (h : MarkedTimes m last t) (hpointer : t.pointers ≠ 0)
    (n : Nat) :
    MarkedTimes (m + n) (last + n) (marked^[n] t) ∧ (marked^[n] t).pointers = t.pointers := by
  induction n with
  | zero => exact ⟨h, rfl⟩
  | succ n ih =>
    obtain ⟨hmarked, hpointers⟩ := ih
    rw [Function.iterate_succ_apply', pointers_marked]
    exact ⟨hmarked.mark (asArray_eq_ok_iff.mpr ⟨hpointers ▸ hpointer, rfl⟩), hpointers⟩

end BindingModel.Api.BoundType
