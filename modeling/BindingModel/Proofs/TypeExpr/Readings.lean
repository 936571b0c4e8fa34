import BindingModel.Proofs.Error
import BindingModel.Proofs.TypeExpr.Lexing
import BindingModel.TypeExpr.Reader

/-! What is read as lists of types and as qualified names, without the bounds that the readers
keep. -/
namespace BindingModel.TypeExpr
open Token

/-! ### Lists of types

Template arguments and parameters are read alike, but for the closing unit and the names that may
stand behind parameters. -/

/-- Types are read one after another, with a comma behind each and the closing unit behind the last;
`skip` passes over what else may stand behind a type. -/
inductive ReadsList (rd : Reader TypeExpr) (skip : List Token → List Token) (close : Token) :
    List Token → List TypeExpr → List Token → Prop
  | last {ts us rest : List Token} {t : TypeExpr} (ht : rd ts = .ok (t, us))
      (hclose : skip us = close :: rest) : ReadsList rd skip close ts [t] rest
  | more {ts us vs rest : List Token} {t : TypeExpr} {as : List TypeExpr}
      (ht : rd ts = .ok (t, us)) (hcomma : skip us = .comma :: vs)
      (h : ReadsList rd skip close vs as rest) : ReadsList rd skip close ts (t :: as) rest

section
variable {src : String} {rd : Reader TypeExpr} {n : Nat} {ts rest : List Token}
  {as : List TypeExpr}

/-- The bound on the arguments is the only other thing that their reader looks at. -/
theorem readArguments_eq_ok_iff :
    readArguments src rd n ts = .ok (as, rest) ↔
      ReadsList rd id .greater ts as rest ∧ as.length ≤ n := by
  constructor
  · intro h
    induction n generalizing ts as with
    | zero => cases h
    | succ n ih =>
      obtain ⟨⟨t, us⟩, ht, h⟩ := Error.bind_eq_ok h
      dsimp only at h
      split at h
      · obtain ⟨⟨as, vs⟩, hnext, h⟩ := Error.bind_eq_ok h
        cases h
        obtain ⟨hreads, hlength⟩ := ih hnext
        exact ⟨.more ht rfl hreads, Nat.succ_le_succ hlength⟩
      · cases h
        exact ⟨.last ht rfl, Nat.succ_pos n⟩
      · cases h
      · cases h
  · rintro ⟨h, hlength⟩
    induction h generalizing n with
    | @last ts us rest t ht hclose =>
      obtain ⟨n, rfl⟩ := Nat.exists_eq_add_one.mpr hlength
      obtain rfl : us = .greater :: rest := hclose
      rw [readArguments, ht]
      rfl
    | @more ts us vs rest t as ht hcomma h ih =>
      obtain ⟨n, rfl⟩ := Nat.exists_eq_add_one.mpr (Nat.zero_lt_of_lt hlength)
      obtain rfl : us = .comma :: vs := hcomma
      rw [readArguments, ht]
      show (readArguments src rd n vs >>= _) = _
      rw [ih (Nat.le_of_succ_le_succ hlength)]
      rfl

theorem readParams_eq_ok_iff :
    readParams src rd n ts = .ok (as, rest) ↔
      ReadsList rd skipIdent .rightParen ts as rest ∧ as.length ≤ n := by
  constructor
  · intro h
    induction n generalizing ts as with
    | zero => cases h
    | succ n ih =>
      obtain ⟨⟨t, us⟩, ht, h⟩ := Error.bind_eq_ok h
      dsimp only at h
      split at h
      · next heq =>
        obtain ⟨⟨as, vs⟩, hnext, h⟩ := Error.bind_eq_ok h
        cases h
        obtain ⟨hreads, hlength⟩ := ih hnext
        exact ⟨.more ht heq hreads, Nat.succ_le_succ hlength⟩
      · next heq =>
        cases h
        exact ⟨.last ht heq, Nat.succ_pos n⟩
      · cases h
  · rintro ⟨h, hlength⟩
    induction h generalizing n with
    | @last ts us rest t ht hclose =>
      obtain ⟨n, rfl⟩ := Nat.exists_eq_add_one.mpr hlength
      simp only [readParams, ht, bind, Except.bind, hclose]
      rfl
    | @more ts us vs rest t as ht hcomma h ih =>
      obtain ⟨n, rfl⟩ := Nat.exists_eq_add_one.mpr (Nat.zero_lt_of_lt hlength)
      simp only [readParams, ht, bind, Except.bind, hcomma,
        ih (Nat.le_of_succ_le_succ hlength)]
      rfl

end

/-! ### Qualified names -/

/-- Segments with template arguments are read one after another; the arguments of the last one are
kept. -/
inductive ReadsSegments (src : String) (rd : Reader TypeExpr) :
    List Token → List String → List TypeExpr → List Token → Prop
  | last {w seg : String} {ts us rest : List Token} {args : List TypeExpr}
      (hseg : readSegment w ts = (seg, us)) (hargs : readTemplate src rd us = .ok (args, rest))
      (hend : Starts (· ≠ .scope) rest) : ReadsSegments src rd (.ident w :: ts) [seg] args rest
  | scope {w seg : String} {segs : List String} {ts us vs rest : List Token}
      {dropped args : List TypeExpr} (hseg : readSegment w ts = (seg, us))
      (hdropped : readTemplate src rd us = .ok (dropped, .scope :: vs))
      (h : ReadsSegments src rd vs segs args rest) :
      ReadsSegments src rd (.ident w :: ts) (seg :: segs) args rest

theorem readSegments_eq_ok_iff {src : String} {rd : Reader TypeExpr} {n : Nat}
    {ts rest : List Token} {segs : List String} {args : List TypeExpr} :
    readSegments src rd n ts = .ok ((segs, args), rest) ↔
      ReadsSegments src rd ts segs args rest ∧ segs.length ≤ n := by
  constructor
  · intro h
    induction n generalizing ts segs with
    | zero => cases h
    | succ n ih =>
      unfold readSegments at h
      split at h
      · next heq =>
        cases heq
        obtain ⟨⟨args', us⟩, htemplate, h⟩ := Error.bind_eq_ok h
        dsimp only at h
        split at h
        · obtain ⟨⟨⟨segs, args⟩, vs⟩, hnext, h⟩ := Error.bind_eq_ok h
          cases h
          obtain ⟨hreads, hlength⟩ := ih hnext
          exact ⟨.scope rfl htemplate hreads, Nat.succ_le_succ hlength⟩
        · next hscope =>
          cases h
          refine ⟨.last rfl htemplate ?_, Nat.succ_pos n⟩
          rintro u hu rfl
          obtain ⟨us, rfl⟩ := List.head?_eq_some_iff.mp hu
          exact hscope us rfl
      · cases h
  · rintro ⟨h, hlength⟩
    induction h generalizing n with
    | @last w seg ts us rest args hseg hargs hend =>
      obtain ⟨n, rfl⟩ := Nat.exists_eq_add_one.mpr hlength
      rw [readSegments, hseg]
      dsimp only
      rw [hargs]
      cases rest with
      | nil => rfl
      | cons u rest =>
        cases u with
        | scope => exact absurd rfl (hend .scope rfl)
        | _ => rfl
    | @scope w seg segs ts us vs rest dropped args hseg hdropped h ih =>
      obtain ⟨n, rfl⟩ := Nat.exists_eq_add_one.mpr (Nat.zero_lt_of_lt hlength)
      rw [readSegments, hseg]
      dsimp only
      rw [hdropped]
      show (readSegments src rd n vs >>= _) = _
      rw [ih (Nat.le_of_succ_le_succ hlength)]
      rfl

end BindingModel.TypeExpr
