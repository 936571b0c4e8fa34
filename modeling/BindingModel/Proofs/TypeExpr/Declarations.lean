import BindingModel.Proofs.Error
import BindingModel.Proofs.TypeExpr.Readings
import BindingModel.Proofs.TypeExpr.Scanning
import BindingModel.TypeExpr.Reader

/-! The declaration of a named parameter: what is read of the units of a type is read of them again
when the name of the parameter follows. -/
namespace BindingModel

namespace TypeExpr
open Token

/-- An identifier that does not continue the type it follows. -/
def IsParameterName (n : String) : Prop :=
  IsWord n ∧ n ≠ "const" ∧ n ≠ "volatile" ∧ n ∉ builtinWords

theorem isParameterName_of_scan {w : String} (h : scan w.toList = some [.ident w])
    (hw : w ≠ "const" ∧ w ≠ "volatile" ∧ w ∉ builtinWords) : IsParameterName w :=
  ⟨(allLexed_of_scan h).head, hw⟩

/-- What the one reader makes of units the other makes of them when the name follows, whatever
stands behind it. -/
def ReadsBefore {α : Type} (n : String) (more : List Token) (rd rd' : Reader α) : Prop :=
  ∀ ts a rest, rd ts = .ok (a, rest) →
    rd' (ts ++ .ident n :: more) = .ok (a, rest ++ .ident n :: more)

section
variable {n : String} {more : List Token} (hn : IsParameterName n)
include hn

theorem readSegment_name (w : String) (ts : List Token) :
    readSegment w (ts ++ .ident n :: more) =
      ((readSegment w ts).1, (readSegment w ts).2 ++ .ident n :: more) := by
  induction ts generalizing w with
  | nil =>
    show (if w ∈ builtinWords ∧ n ∈ builtinWords then _ else _) = _
    rw [if_neg fun h => hn.2.2.2 h.2]
    rfl
  | cons t ts ih =>
    cases t with
    | ident u =>
      rw [List.cons_append, readSegment, readSegment]
      split
      · rw [ih]
      · rfl
    | _ => rfl

theorem readCv_name (c v : Bool) (ts : List Token) :
    readCv c v (ts ++ .ident n :: more) = ((readCv c v ts).1, (readCv c v ts).2 ++ .ident n :: more) := by
  fun_induction readCv c v ts with
  | case1 c v ts ih => exact ih
  | case2 c v ts ih => exact ih
  | case3 c v ts hconst hvolatile =>
    unfold readCv
    split
    · next heq =>
      cases ts with
      | nil => cases heq; exact absurd rfl hn.2.1
      | cons t ts => cases heq; exact (hconst _ rfl).elim
    · next heq =>
      cases ts with
      | nil => cases heq; exact absurd rfl hn.2.2.1
      | cons t ts => cases heq; exact (hvolatile _ rfl).elim
    · rfl

theorem readDeclarators_name (p : Nat) (r : RefKind) (afterStar : Bool) (ts : List Token) :
    readDeclarators p r afterStar (ts ++ .ident n :: more) =
      ((readDeclarators p r afterStar ts).1,
        (readDeclarators p r afterStar ts).2 ++ .ident n :: more) := by
  induction ts generalizing p r afterStar with
  | nil =>
    show (if afterStar = true ∧ (n = "const" ∨ n = "volatile") then _ else _) = _
    rw [if_neg fun h => h.2.elim hn.2.1 hn.2.2.1]
    rfl
  | cons t ts ih =>
    cases t with
    | ident w =>
      rw [List.cons_append, readDeclarators, readDeclarators]
      split
      · exact ih _ _ _
      · rfl
    | star => exact ih _ _ _
    | amp => exact ih _ _ _
    | ampAmp => exact ih _ _ _
    | _ => rfl

omit hn

theorem skipElaborated_append {ts : List Token} (hne : ts ≠ []) (more : List Token) :
    skipElaborated (ts ++ more) = skipElaborated ts ++ more := by
  obtain ⟨t, ts, rfl⟩ := List.exists_cons_of_ne_nil hne
  cases t with
  | ident w =>
    unfold skipElaborated
    dsimp only [List.cons_append]
    split <;> rfl
  | _ => rfl

theorem skipIdent_append {ts : List Token} (hne : ts ≠ []) (more : List Token) :
    skipIdent (ts ++ more) = skipIdent ts ++ more := by
  obtain ⟨t, ts, rfl⟩ := List.exists_cons_of_ne_nil hne
  cases t <;> rfl

theorem readDimensions_name (src src' : String) (inside : Option String) :
    ReadsBefore n more (readDimensions src inside) (readDimensions src' inside) := by
  intro ts dims rest h
  induction ts generalizing inside dims rest with
  | nil =>
    cases inside with
    | none =>
      cases h
      rfl
    | some d => cases h
  | cons t ts ih =>
    cases inside with
    | none =>
      cases t with
      | leftBracket => exact ih _ _ _ h
      | _ =>
        cases h
        rfl
    | some d =>
      cases t with
      | rightBracket =>
        obtain ⟨⟨ds, us⟩, hnext, h⟩ := Error.bind_eq_ok h
        cases h
        show (readDimensions src' none (ts ++ .ident n :: more) >>= _) = _
        rw [ih _ _ _ hnext]
        rfl
      | _ => exact ih _ _ _ h

theorem expect_name {src : String} (src' : String) {tok : Token} {ts rest : List Token}
    (h : expect src tok ts = .ok rest) :
    expect src' tok (ts ++ .ident n :: more) = .ok (rest ++ .ident n :: more) := by
  cases ts with
  | nil => cases h
  | cons t ts =>
    rw [expect] at h
    split at h
    · next heq =>
      cases h
      rw [List.cons_append, expect, if_pos heq]
      rfl
    · cases h

variable (src src' : String) {rd rd' : Reader TypeExpr} (hrd : ReadsBefore n more rd rd')
include hrd

omit hrd in
/-- `skip` has to find the next unit before the name. -/
theorem ReadsList.name (hrd : ReadsBefore n more rd rd') {skip : List Token → List Token}
    (hskip : ∀ us u rest, skip us = u :: rest →
      skip (us ++ .ident n :: more) = u :: (rest ++ .ident n :: more))
    {close : Token} {ts rest : List Token} {as : List TypeExpr}
    (h : ReadsList rd skip close ts as rest) :
    ReadsList rd' skip close (ts ++ .ident n :: more) as (rest ++ .ident n :: more) := by
  induction h with
  | last ht hclose => exact .last (hrd _ _ _ ht) (hskip _ _ _ hclose)
  | more ht hcomma _ ih => exact .more (hrd _ _ _ ht) (hskip _ _ _ hcomma) ih

theorem readArguments_name {k k' : Nat} (hk : k ≤ k') :
    ReadsBefore n more (readArguments src rd k) (readArguments src' rd' k') := by
  intro ts args rest h
  obtain ⟨hreads, hlength⟩ := readArguments_eq_ok_iff.mp h
  refine readArguments_eq_ok_iff.mpr ⟨hreads.name hrd ?_, hlength.trans hk⟩
  rintro us u rest rfl
  rfl

theorem readTemplate_name : ReadsBefore n more (readTemplate src rd) (readTemplate src' rd') := by
  intro ts args rest h
  unfold readTemplate at h
  split at h
  · cases h
    rfl
  · next ts hempty =>
    have hk : ts.length + 1 ≤ (ts ++ Token.ident n :: more).length + 1 := by simp
    have hargs := readArguments_name src src' hrd hk _ _ _ h
    cases ts with
    | nil => exact hargs
    | cons t ts =>
      cases t with
      | greater => exact (hempty _ rfl).elim
      | _ => exact hargs
  · next hempty hless =>
    cases h
    cases ts with
    | nil => rfl
    | cons t ts =>
      cases t with
      | less => exact (hless _ rfl).elim
      | _ => rfl

include hn in
theorem ReadsSegments.name {ts rest : List Token} {segs : List String} {args : List TypeExpr}
    (h : ReadsSegments src rd ts segs args rest) :
    ReadsSegments src' rd' (ts ++ .ident n :: more) segs args (rest ++ .ident n :: more) := by
  have hsegment : ∀ {w seg : String} {ts us : List Token}, readSegment w ts = (seg, us) →
      readSegment w (ts ++ .ident n :: more) = (seg, us ++ .ident n :: more) := by
    intro w seg ts us hseg
    rw [readSegment_name hn, hseg]
  induction h with
  | last hseg hargs hend =>
    exact .last (hsegment hseg) (readTemplate_name src src' hrd _ _ _ hargs)
      (hend.append (.cons (by simp) _))
  | scope hseg hdropped _ ih =>
    exact .scope (hsegment hseg) (readTemplate_name src src' hrd _ _ _ hdropped) ih

include hn in
theorem readSegments_name {k k' : Nat} (hk : k ≤ k') :
    ReadsBefore n more (readSegments src rd k) (readSegments src' rd' k') := by
  intro ts r rest h
  obtain ⟨hreads, hlength⟩ := readSegments_eq_ok_iff.mp h
  exact readSegments_eq_ok_iff.mpr ⟨hreads.name hn src src' hrd, hlength.trans hk⟩

include hn in
theorem readName_name : ReadsBefore n more (readName src rd) (readName src' rd') := by
  intro ts r rest h
  cases ts with
  | nil => cases h
  | cons t ts =>
    cases t with
    | ellipsis =>
      cases h
      rfl
    | number d =>
      cases h
      rfl
    | scope => exact readSegments_name hn src src' hrd (by simp) _ _ _ h
    | ident w => exact readSegments_name hn src src' hrd (by simp) _ _ _ h
    | _ => cases h

theorem readParams_name {k k' : Nat} (hk : k ≤ k') :
    ReadsBefore n more (readParams src rd k) (readParams src' rd' k') := by
  intro ts ps rest h
  obtain ⟨hreads, hlength⟩ := readParams_eq_ok_iff.mp h
  refine readParams_eq_ok_iff.mpr ⟨hreads.name hrd ?_, hlength.trans hk⟩
  intro us u rest heq
  have hne : us ≠ [] := by
    rintro rfl
    cases heq
  rw [skipIdent_append hne, heq, List.cons_append]

theorem readPointer_name : ReadsBefore n more (readPointer src rd) (readPointer src' rd') := by
  intro ts ps? rest h
  unfold readPointer at h
  split at h
  · next us =>
    obtain ⟨vs, hclose, h⟩ := Error.bind_eq_ok h
    obtain ⟨ws, hopen, h⟩ := Error.bind_eq_ok h
    have hne : us ≠ [] := by
      rintro rfl
      cases hclose
    rw [List.cons_append, List.cons_append, readPointer, skipIdent_append hne,
      expect_name src' hclose]
    show (expect src' .leftParen (vs ++ .ident n :: more) >>= _) = _
    rw [expect_name src' hopen]
    split at h
    · cases h
      rfl
    · next hempty =>
      obtain ⟨⟨ps, us⟩, hps, h⟩ := Error.bind_eq_ok h
      cases h
      have hk : ws.length + 1 ≤ (ws ++ Token.ident n :: more).length + 1 := by simp
      have hps' := readParams_name src src' hrd hk _ _ _ hps
      cases ws with
      | nil => exact congrArg (· >>= fun r => pure (some r.1, r.2)) hps'
      | cons t ws =>
        cases t with
        | rightParen => exact (hempty _ rfl).elim
        | _ => exact congrArg (· >>= fun r => pure (some r.1, r.2)) hps'
  · next hpointer =>
    cases h
    rcases ts with - | ⟨t, - | ⟨u, ts⟩⟩
    · rfl
    · cases t <;> rfl
    · cases t with
      | leftParen =>
        cases u with
        | star => exact (hpointer _ rfl).elim
        | _ => rfl
      | _ => rfl

omit hrd in
theorem readType_name (hn : IsParameterName n) (more : List Token) (src src' : String)
    (budget : Nat) :
    ReadsBefore n more (readType src budget) (readType src' budget) := by
  induction budget with
  | zero => exact fun ts t rest h => by cases h
  | succ budget ih =>
    intro ts t rest h
    rw [readType] at h
    obtain ⟨⟨⟨name, args⟩, ts₂⟩, hname, h⟩ := Error.bind_eq_ok h
    obtain ⟨⟨params?, ts₅⟩, hparams, h⟩ := Error.bind_eq_ok h
    obtain ⟨⟨dims, ts₆⟩, hdims, h⟩ := Error.bind_eq_ok h
    cases h
    have hne : (readCv false false ts).2 ≠ [] := by
      intro hnil
      rw [hnil] at hname
      cases hname
    have hname' := readName_name hn src src' ih _ _ _ hname
    have hparams' := readPointer_name src src' ih _ _ _ hparams
    have hdimsBefore : ReadsBefore n more (readDimensions src none) (readDimensions src' none) :=
      readDimensions_name src src' none
    have hdims' := hdimsBefore _ _ _ hdims
    simp only [readType, readCv_name hn, skipElaborated_append hne, hname',
      readDeclarators_name hn, hparams', hdims', bind, Except.bind]
    rfl

end

theorem tokens_of_scan {s : String} {us : List Token} (h : scan s.toList = some us) :
    tokens s = .ok us := by
  unfold tokens
  rw [h]
  rfl

theorem parse_eq_ok {s : String} {t : TypeExpr} (h : parse s = .ok t) :
    ∃ us, scan s.toList = some us ∧ readType s (nestingLimit - 1) us = .ok (t, []) := by
  obtain ⟨us, htokens, h⟩ := Error.bind_eq_ok h
  obtain ⟨⟨t', rest⟩, hread, h⟩ := Error.bind_eq_ok h
  unfold tokens at htokens
  split at htokens
  · next us hscan =>
    cases htokens
    cases rest with
    | nil =>
      cases h
      exact ⟨us, hscan, hread⟩
    | cons t rest => cases h
  · cases htokens

theorem parseDeclaration_of_parse {s : String} {t : TypeExpr} (h : parse s = .ok t) :
    parseDeclaration s = .ok (t, none) := by
  obtain ⟨us, hscan, hread⟩ := parse_eq_ok h
  simp only [parseDeclaration, tokens_of_scan hscan, bind, Except.bind, hread]
  rfl

theorem parseDeclaration_eq_ok {s n : String} {t : TypeExpr}
    (h : parseDeclaration s = .ok (t, some n)) :
    ∃ us, scan s.toList = some us ∧ readType s (nestingLimit - 1) us = .ok (t, [.ident n]) := by
  obtain ⟨us, htokens, h⟩ := Error.bind_eq_ok h
  obtain ⟨⟨t', rest⟩, hread, h⟩ := Error.bind_eq_ok h
  unfold tokens at htokens
  split at htokens
  · next us hscan =>
    cases htokens
    dsimp only at h
    split at h
    · cases h
    · cases h
      exact ⟨us, hscan, hread⟩
    · cases h
    · cases h
  · cases htokens

theorem scan_of_isWord {w : String} (h : IsWord w) : scan w.toList = some [.ident w] := by
  have hword : scan (w.toList ++ []) = some [.ident w] := scan_word (by simp [scan]) h .nil
  rwa [List.append_nil] at hword

/-- A text with the units of a type and a name behind them declares a parameter of that type and
name. -/
theorem parseDeclaration_of_scan {s s' n : String} {t : TypeExpr} (h : parse s = .ok t)
    (hn : IsParameterName n)
    (hscan' : ∀ us, scan s.toList = some us → scan s'.toList = some (us ++ [.ident n])) :
    parseDeclaration s' = .ok (t, some n) := by
  obtain ⟨us, hscan, hread⟩ := parse_eq_ok h
  have hread' := readType_name hn [] s s' _ _ _ _ hread
  simp only [parseDeclaration, tokens_of_scan (hscan' us hscan), bind, Except.bind, hread']
  rfl

theorem parseDeclaration_named {s n : String} {t : TypeExpr} (h : parse s = .ok t)
    (hn : IsParameterName n) : parseDeclaration (s ++ " " ++ n) = .ok (t, some n) := by
  apply parseDeclaration_of_scan h hn
  intro us hscan
  have hboth := scan_append_blank (b := ' ') (by decide) s.toList n.toList
  rw [hscan, scan_of_isWord hn.1] at hboth
  simpa using hboth

end TypeExpr
end BindingModel
