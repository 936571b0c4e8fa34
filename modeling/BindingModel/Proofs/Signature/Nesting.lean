import BindingModel.Signature.Reader
import Mathlib.Data.List.Basic

/-! Nesting in signatures: which marks a split passes over and which parenthesis closes. A split
counts `<` and `>` as brackets, whatever they mean where they stand. -/
namespace BindingModel.Signature
open Text
variable {sep c : Char} {d : Int} {s t w : List Char} {ws : List (List Char)}

/-! ### Splitting -/

/-- The nesting after a text that begins at nesting `d`. -/
def nestingAfter (d : Int) (s : List Char) : Int := s.foldl nesting d

@[simp] theorem nestingAfter_nil : nestingAfter d [] = d := rfl

@[simp] theorem nestingAfter_cons : nestingAfter d (c :: s) = nestingAfter (nesting d c) s := rfl

theorem nestingAfter_append : nestingAfter d (s ++ t) = nestingAfter (nestingAfter d s) t :=
  List.foldl_append

/-- No `sep` of the text, which begins at nesting `d`, stands outside all brackets. -/
def Uncut (sep : Char) : Int → List Char → Prop
  | _, [] => True
  | d, c :: s => ¬(c = sep ∧ nesting d c = 0) ∧ Uncut sep (nesting d c) s

instance Uncut.decidable (sep : Char) : ∀ d s, Decidable (Uncut sep d s)
  | _, [] => inferInstanceAs (Decidable True)
  | d, c :: s =>
    haveI := Uncut.decidable sep (nesting d c) s
    inferInstanceAs (Decidable (_ ∧ _))

theorem uncut_append :
    Uncut sep d (s ++ t) ↔ Uncut sep d s ∧ Uncut sep (nestingAfter d s) t := by
  induction s generalizing d with
  | nil => simp [Uncut]
  | cons c s ih => simp [Uncut, ih, and_assoc]

/-- A text that is not cut goes in front of the first piece of what follows. -/
theorem splitTop_append (hs : Uncut sep d s) (ht : splitTop sep (nestingAfter d s) t = w :: ws) :
    splitTop sep d (s ++ t) = (s ++ w) :: ws := by
  induction s generalizing d with
  | nil => exact ht
  | cons c s ih =>
    rw [List.cons_append, splitTop, if_neg hs.1, ih hs.2 ht]
    rfl

theorem splitTop_of_uncut (h : Uncut sep d s) : splitTop sep d s = [s] := by
  have hsplit := splitTop_append h (t := []) rfl
  rwa [List.append_nil] at hsplit

theorem splitTop_of_cut (hs : Uncut sep d s) (hcut : nesting (nestingAfter d s) sep = 0)
    (t : List Char) : splitTop sep d (s ++ sep :: t) = s :: splitTop sep 0 t := by
  have hhead : splitTop sep (nestingAfter d s) (sep :: t) = [] :: splitTop sep 0 t := by
    rw [splitTop, if_pos ⟨rfl, hcut⟩, hcut]
  rw [splitTop_append hs hhead, List.append_nil]

/-- A text is in one piece, or cut behind its first piece. -/
theorem uncut_or_cut (sep : Char) (d : Int) (s : List Char) :
    Uncut sep d s ∨ ∃ w t, s = w ++ sep :: t ∧ Uncut sep d w ∧
      nesting (nestingAfter d w) sep = 0 := by
  induction s generalizing d with
  | nil => exact .inl trivial
  | cons c s ih =>
    by_cases hcut : c = sep ∧ nesting d c = 0
    · obtain ⟨rfl, hcut⟩ := hcut
      exact .inr ⟨[], s, rfl, trivial, hcut⟩
    · obtain hs | ⟨w, t, rfl, hw, hnext⟩ := ih (nesting d c)
      · exact .inl ⟨hcut, hs⟩
      · exact .inr ⟨c :: w, t, rfl, ⟨hcut, hw⟩, hnext⟩

theorem exists_splitTop (sep : Char) (d : Int) (s : List Char) :
    ∃ w ws, splitTop sep d s = w :: ws := by
  obtain h | ⟨w, t, rfl, hw, hcut⟩ := uncut_or_cut sep d s
  · exact ⟨s, [], splitTop_of_uncut h⟩
  · exact ⟨w, _, splitTop_of_cut hw hcut t⟩

/-- The pieces with `sep` between them are the text that was split. -/
theorem joinWith_splitTop (sep : Char) (d : Int) (s : List Char) :
    joinWith sep.toString ((splitTop sep d s).map .ofList) = .ofList s := by
  induction s generalizing d with
  | nil => rfl
  | cons c s ih =>
    have hrest := ih (nesting d c)
    obtain ⟨w, ws, hsplit⟩ := exists_splitTop sep (nesting d c) s
    rw [hsplit] at hrest
    rw [splitTop]
    split
    · next hcut =>
      rw [hsplit]
      show "" ++ sep.toString ++ joinWith sep.toString ((w :: ws).map .ofList) = _
      rw [hrest, hcut.1]
      apply String.toList_injective
      simp
    · rw [hsplit]
      apply String.toList_injective
      have hchars := congrArg String.toList hrest
      cases ws with
      | nil => simpa [joinWith] using hchars
      | cons v vs => simpa [joinWith] using hchars

/-! ### Bracketed texts -/

/-- The character is no bracket of the pairs. -/
def IsPlain (pairs : List (Char × Char)) (c : Char) : Prop := ∀ q ∈ pairs, c ≠ q.1 ∧ c ≠ q.2

instance (pairs : List (Char × Char)) : DecidablePred (IsPlain pairs) :=
  fun _ => inferInstanceAs (Decidable (∀ q ∈ pairs, _))

/-- The brackets of the pairs match, and the other characters outside them are as `p` says. -/
inductive Bracketed (pairs : List (Char × Char)) : (Char → Prop) → List Char → Prop
  | nil {p : Char → Prop} : Bracketed pairs p []
  | plain {p : Char → Prop} {c : Char} {s : List Char} (hc : p c) (hplain : IsPlain pairs c)
      (hs : Bracketed pairs p s) : Bracketed pairs p (c :: s)
  | group {p : Char → Prop} {o c : Char} {i s : List Char} (hpair : (o, c) ∈ pairs)
      (hi : Bracketed pairs (fun _ => True) i) (hs : Bracketed pairs p s) :
      Bracketed pairs p (o :: (i ++ c :: s))

/-- Brackets of expressions. -/
def brackets : List (Char × Char) := [('(', ')'), ('[', ']'), ('\x7b', '\x7d')]

/-- Brackets of types. -/
def typeBrackets : List (Char × Char) := ('<', '>') :: brackets

namespace Bracketed
variable {pairs : List (Char × Char)} {p q : Char → Prop}

theorem append (hs : Bracketed pairs p s) (ht : Bracketed pairs p t) :
    Bracketed pairs p (s ++ t) := by
  induction hs with
  | nil => exact ht
  | plain hc hplain _ ih => exact .plain hc hplain (ih ht)
  | group hpair hi _ _ ih =>
    rw [List.cons_append, List.append_assoc, List.cons_append]
    exact .group hpair hi (ih ht)

theorem mono (hs : Bracketed pairs p s) (hpq : ∀ c, p c → q c) : Bracketed pairs q s := by
  induction hs with
  | nil => exact .nil
  | plain hc hplain _ ih => exact .plain (hpq _ hc) hplain (ih hpq)
  | group hpair hi _ _ ih => exact .group hpair hi (ih hpq)

theorem of_forall (h : ∀ c ∈ s, p c ∧ IsPlain pairs c) : Bracketed pairs p s := by
  induction s with
  | nil => exact .nil
  | cons c s ih =>
    obtain ⟨hc, hs⟩ := List.forall_mem_cons.mp h
    exact .plain hc.1 hc.2 (ih hs)

theorem of_all [DecidablePred p] (h : s.all (fun c => p c ∧ IsPlain pairs c) = true) :
    Bracketed pairs p s :=
  .of_forall fun c hc => by simpa using List.all_eq_true.mp h c hc

end Bracketed

/-- An expression without `<` and `>` is bracketed like a type. -/
theorem Bracketed.angled {p : Char → Prop} (h : Bracketed brackets p s)
    (hangle : '<' ∉ s ∧ '>' ∉ s) : Bracketed typeBrackets p s := by
  induction h with
  | nil => exact .nil
  | plain hc hplain _ ih =>
    simp only [List.mem_cons, not_or] at hangle
    obtain ⟨⟨hless, hls⟩, hgreater, hgs⟩ := hangle
    exact .plain hc (List.forall_mem_cons.mpr ⟨⟨Ne.symm hless, Ne.symm hgreater⟩, hplain⟩)
      (ih ⟨hls, hgs⟩)
  | group hpair _ _ ihi ih =>
    simp only [List.mem_cons, List.mem_append, not_or] at hangle
    obtain ⟨⟨-, hli, -, hls⟩, -, hgi, -, hgs⟩ := hangle
    exact .group (List.mem_cons_of_mem _ hpair) (ihi ⟨hli, hgi⟩) (ih ⟨hls, hgs⟩)

theorem nesting_of_isPlain (h : IsPlain typeBrackets c) : nesting d c = d := by
  simp only [IsPlain, typeBrackets, brackets, List.forall_mem_cons] at h
  simp [nesting, isOpening, isClosing, h]

theorem nesting_pair {o : Char} (h : (o, c) ∈ typeBrackets) :
    nesting d o = d + 1 ∧ nesting (d + 1) c = d := by
  have hall : ∀ q ∈ typeBrackets, isOpening q.1 = true ∧ isOpening q.2 = false ∧
      isClosing q.2 = true := by decide
  obtain ⟨ho, hc, hclose⟩ := hall _ h
  simp only at ho hc hclose
  simp [nesting, ho, hc, hclose]

/-- Where `<` and `>` match like the other brackets, the nesting is the same at both ends. -/
theorem Bracketed.nestingAfter_eq {p : Char → Prop} (h : Bracketed typeBrackets p s) :
    nestingAfter d s = d := by
  induction h generalizing d with
  | nil => rfl
  | plain _ hplain _ ih => rw [nestingAfter_cons, nesting_of_isPlain hplain, ih]
  | group hpair _ _ ihi ih =>
    obtain ⟨ho, hc⟩ := nesting_pair (d := d) hpair
    rw [nestingAfter_cons, ho, nestingAfter_append, ihi, nestingAfter_cons, hc, ih]

theorem Bracketed.uncut {p : Char → Prop} (h : Bracketed typeBrackets p s)
    (hsep : IsPlain typeBrackets sep) (hd : 0 ≤ d) (hp : d = 0 → ∀ c, p c → c ≠ sep) :
    Uncut sep d s := by
  induction h generalizing d with
  | nil => trivial
  | plain hc hplain _ ih =>
    have hsame := nesting_of_isPlain (d := d) hplain
    refine ⟨fun hcut => hp (hsame.symm.trans hcut.2) _ hc hcut.1, ?_⟩
    rw [hsame]
    exact ih hd hp
  | group hpair hi _ ihi ih =>
    obtain ⟨ho, hc⟩ := nesting_pair (d := d) hpair
    refine ⟨fun hcut => (hsep _ hpair).1 hcut.1.symm, ?_⟩
    rw [ho, uncut_append, hi.nestingAfter_eq]
    refine ⟨ihi (by omega) (by omega), fun hcut => (hsep _ hpair).2 hcut.1.symm, ?_⟩
    rw [hc]
    exact ih hd hp

/-! ### The closing parenthesis -/

/-- The parentheses match: the one that closes is searched behind the text. -/
def ParensMatch (s : List Char) : Prop :=
  ∀ n t, closeParen n (s ++ t) = (closeParen n t).map fun r => (s ++ r.1, r.2)

namespace ParensMatch

theorem nil : ParensMatch [] := by
  intro n t
  cases h : closeParen n t <;> simp [h]

theorem append (hs : ParensMatch s) (ht : ParensMatch t) : ParensMatch (s ++ t) := by
  intro n u
  rw [List.append_assoc, hs, ht, Option.map_map]
  simp [Function.comp_def]

theorem cons (hopen : c ≠ '(') (hclose : c ≠ ')') (hs : ParensMatch s) : ParensMatch (c :: s) := by
  intro n t
  rw [List.cons_append, closeParen.eq_def]
  dsimp only
  rw [if_neg hopen, if_neg hclose, hs, Option.map_map]
  rfl

theorem group (hs : ParensMatch s) (ht : ParensMatch t) :
    ParensMatch ('(' :: (s ++ ')' :: t)) := by
  intro n u
  have hclose : closeParen (n + 1) (')' :: (t ++ u)) =
      (closeParen n u).map fun r => (')' :: (t ++ r.1), r.2) := by
    rw [closeParen.eq_def]
    dsimp only
    rw [if_neg (by decide), if_pos rfl, ht, Option.map_map]
    rfl
  have hassoc : '(' :: (s ++ ')' :: t) ++ u = '(' :: (s ++ (')' :: (t ++ u))) := by simp
  rw [hassoc, closeParen.eq_def]
  dsimp only
  rw [if_pos rfl, hs, hclose, Option.map_map, Option.map_map]
  simp [Function.comp_def]

theorem closeParen_eq (h : ParensMatch s) (t : List Char) :
    closeParen 0 (s ++ ')' :: t) = some (s, t) := by
  have hclose : closeParen 0 (')' :: t) = some ([], t) := rfl
  rw [h, hclose, Option.map_some, List.append_nil]

end ParensMatch

theorem Bracketed.parensMatch {pairs : List (Char × Char)} {p : Char → Prop}
    (h : Bracketed pairs p s) (hparens : ('(', ')') ∈ pairs)
    (hothers : ∀ q ∈ pairs, q = ('(', ')') ∨ q.1 ∉ ['(', ')'] ∧ q.2 ∉ ['(', ')']) :
    ParensMatch s := by
  induction h with
  | nil => exact .nil
  | plain _ hplain _ ih => exact .cons (hplain _ hparens).1 (hplain _ hparens).2 ih
  | group hpair _ _ ihi ih =>
    obtain heq | ⟨ho, hc⟩ := hothers _ hpair
    · cases heq
      exact .group ihi ih
    · simp only [List.mem_cons, List.not_mem_nil, or_false, not_or] at ho hc
      exact .cons ho.1 ho.2 (ihi.append (.cons hc.1 hc.2 ih))

end BindingModel.Signature
