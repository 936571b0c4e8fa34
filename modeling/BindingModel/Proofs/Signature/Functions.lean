import BindingModel.Proofs.Signature.Parameters
import BindingModel.Proofs.Text.Cut
import BindingModel.Rule.AddedFunction
import Mathlib

/-! Functions as rules write them: which are read with the parameters they are written with. -/
namespace BindingModel

/-- A function with the texts it is written with. -/
structure WrittenFunction where
  name : String
  params : List WrittenParameter
  isConst : Bool

namespace WrittenFunction
open Text Signature
open WrittenParameter (spelled Separable)
variable {w : WrittenFunction} {n : String} {rest : List Char}

def trailer (w : WrittenFunction) : String := if w.isConst then " const" else ""

def text (w : WrittenFunction) : String :=
  w.name ++ "(" ++ joinWith ", " (w.params.map (·.text)) ++ ")" ++ w.trailer

/-- The function that is written, with its return type. -/
def added (w : WrittenFunction) (returnType : TypeExpr) : AddedFunction where
  name := w.name
  args := w.params.map fun p => ⟨p.name?.getD "", p.type, p.default?⟩
  returnType
  isConst := w.isConst

/-- Parentheses belong to a name in `operator()` alone. -/
def IsFunctionName (n : String) : Prop :=
  (∃ b, AllBlank b ∧ n.toList = "operator".toList ++ (b ++ ['(', ')'])) ∨
    trim n = n ∧ n ≠ "" ∧ n ≠ "operator" ∧ '(' ∉ n.toList

theorem IsFunctionName.tight (h : IsFunctionName n) : Tight n.toList ∧ n.toList ≠ [] := by
  obtain ⟨b, -, hn⟩ | ⟨htrim, hne, -, -⟩ := h
  · have hfront : Tight "operator".toList := .of_all (by decide)
    have hparens : Tight ['(', ')'] := .of_all (by decide)
    rw [hn]
    exact ⟨hfront.append (by decide) hparens (by decide) b, by simp⟩
  · exact ⟨trim_eq_self_iff.mp htrim, mt String.toList_eq_nil_iff.mp hne⟩

theorem callOperator_operator {b : List Char} (hb : AllBlank b) (s : List Char) :
    callOperator ("operator".toList ++ (b ++ '(' :: ')' :: s)) =
      ("operator".toList ++ b ++ ['(', ')'], s) := by
  have hstart : Token.Starts (isBlank · = false) ('(' :: ')' :: s) := .cons (by decide) _
  obtain ⟨htake, hdrop⟩ := Token.takeWhile_append_of_head hb hstart
  unfold callOperator
  dsimp only
  rw [if_pos (List.isPrefixOf_iff_prefix.mpr (List.prefix_append _ _)), List.drop_left, htake,
    hdrop]
  rfl

/-- A name that goes on behind `operator` has something other than blanks there. -/
theorem exists_dropWhile_isBlank {a : List Char} (hne : a ≠ [])
    (hlast : ∀ c ∈ a.getLast?, isBlank c = false) (s : List Char) :
    ∃ c t, (a ++ s).dropWhile isBlank = c :: t ∧ c ∈ a := by
  obtain ⟨b, u, hb, hu, rfl⟩ := exists_blanks_append a
  cases u with
  | nil =>
    rw [List.append_nil] at hne hlast
    have hmem := List.getLast_mem hne
    have hblank := hb _ hmem
    rw [hlast _ (List.getLast?_eq_getLast_of_ne_nil hne)] at hblank
    cases hblank
  | cons c u =>
    refine ⟨c, u ++ s, ?_, by simp⟩
    rw [List.append_assoc, List.dropWhile_append_of_pos hb]
    exact dropWhile_of_head (by simpa using hu)

/-- The parentheses of the parameters are found behind the name. -/
theorem IsFunctionName.callOperator_eq (h : IsFunctionName n) (rest : List Char) :
    ∃ a b, callOperator (n.toList ++ '(' :: rest) = (a, b ++ '(' :: rest) ∧ '(' ∉ b ∧
      a ++ b = n.toList := by
  have htight := h.tight.1
  obtain ⟨b, hb, hn⟩ | ⟨-, -, hword, hparen⟩ := h
  · refine ⟨n.toList, [], ?_, by simp, List.append_nil _⟩
    have hcall := callOperator_operator hb ('(' :: rest)
    simpa [hn] using hcall
  · refine ⟨[], n.toList, ?_, hparen, rfl⟩
    unfold callOperator
    dsimp only
    split
    · next hprefix =>
      obtain ⟨t, ht⟩ := List.isPrefixOf_iff_prefix.mp hprefix
      obtain ⟨a, hn, rfl⟩ | ⟨a, hn, hrest⟩ := List.append_eq_append_iff.mp ht
      · have hne : a ≠ [] := by
          rintro rfl
          rw [List.append_nil] at hn
          exact hword (String.toList_injective hn)
        have hlast : ∀ c ∈ a.getLast?, isBlank c = false := by
          intro c hc
          refine htight.2 c ?_
          rw [hn, List.getLast?_append, Option.mem_def.mp hc]
          rfl
        obtain ⟨c, u, hdrop, hc⟩ := exists_dropWhile_isBlank hne hlast ('(' :: rest)
        rw [← ht, List.drop_left, hdrop]
        split
        · next heq =>
          obtain rfl := (List.cons.inj heq).1
          exact absurd (hn ▸ List.mem_append_right _ hc) hparen
        · rfl
      · have hin : '(' ∉ "operator".toList := by decide
        cases a with
        | nil =>
          rw [List.append_nil] at hn
          exact absurd (String.toList_injective hn.symm) hword
        | cons c a =>
          obtain rfl := (List.cons.inj hrest).1
          exact absurd (hn ▸ List.mem_append_right _ List.mem_cons_self) hin
    · rfl

/-! ### Reading -/

theorem toList_text (w : WrittenFunction) :
    w.text.toList = w.name.toList ++ '(' :: (spelled w.params ++ ')' :: w.trailer.toList) := by
  simp [text, spelled]

theorem trim_trailer (w : WrittenFunction) :
    trim (.ofList w.trailer.toList) = if w.isConst then "const" else "" := by
  unfold trailer
  cases w.isConst <;> rfl

theorem trim_text (hname : IsFunctionName w.name) : trim w.text = w.text := by
  obtain ⟨htight, hne⟩ := hname.tight
  rw [trim_eq_self_iff, toList_text]
  cases hconst : w.isConst with
  | false =>
    have hparen : Tight [')'] := .of_all (by decide)
    have hall := htight.append hne hparen (by decide) ('(' :: spelled w.params)
    simpa [trailer, hconst] using hall
  | true =>
    have hword : Tight "const".toList := .of_all (by decide)
    have hall := htight.append hne hword (by decide) ('(' :: (spelled w.params ++ [')', ' ']))
    simpa [trailer, hconst] using hall

theorem ofList_spelled_eq_empty_iff {ps : List WrittenParameter} (h : ∀ p ∈ ps, p.IsSound) :
    String.ofList (spelled ps) = "" ↔ ps = [] := by
  constructor
  · intro hnil
    by_contra hne
    have hchars := congrArg String.toList hnil
    rw [String.toList_ofList] at hchars
    exact WrittenParameter.spelled_ne_nil h hne hchars
  · rintro rfl
    rfl

/-- The name, the parameters and the trailer are found; the parameters are read piece by piece. -/
theorem parse_written (hname : IsFunctionName w.name) (hparams : ∀ p ∈ w.params, p.IsSound) :
    Signature.parse w.text = (do
      let params ←
        if w.params = [] then pure []
        else (splitTop ',' 0 (spelled w.params)).mapM parseParameter
      pure { name := w.name, params, isConst := w.isConst }) := by
  obtain ⟨a, b, hcall, hb, hab⟩ :=
    hname.callOperator_eq (spelled w.params ++ ')' :: w.trailer.toList)
  have hclose := (WrittenParameter.parensMatch_spelled hparams).closeParen_eq w.trailer.toList
  have hfront : trim (.ofList (a ++ b)) = w.name := by
    rw [hab, String.ofList_toList]
    exact trim_eq_self_iff.mpr hname.tight.1
  have hinside : trim (.ofList (spelled w.params)) = .ofList (spelled w.params) := by
    rw [trim_eq_self_iff, String.toList_ofList]
    exact WrittenParameter.tight_spelled hparams
  unfold Signature.parse
  rw [trim_text hname]
  dsimp only
  rw [toList_text, hcall]
  dsimp only
  rw [cutFirst?_append hb]
  dsimp only
  rw [hclose]
  dsimp only
  rw [hfront, hinside, if_neg (mt String.toList_eq_nil_iff.mpr hname.tight.2), trim_trailer,
    String.toList_ofList]
  simp only [ofList_spelled_eq_empty_iff hparams]
  cases w.isConst <;> rfl

/-- A function that is written with types, identifiers and expressions is made with just these
parameters exactly if its defaults are separable: every `<` and `>` counts as a bracket, also where
it compares, shifts or belongs to `->`. Defaults without them are separable. -/
theorem make_text_eq_ok_iff (w : WrittenFunction) (hname : IsFunctionName w.name)
    (hvalid : ∀ p ∈ w.params, p.IsValid) (hdims : ∀ p ∈ w.params, p.DimsMatch)
    {returnText : String} {returnType : TypeExpr}
    (hreturn : TypeExpr.parse returnText = .ok returnType) :
    (AddedFunction.make w.text returnText = .ok (w.added returnType) ↔ Separable w.params) ∧
      ((∀ p ∈ w.params, ∀ d ∈ p.default?, '<' ∉ d.toList ∧ '>' ∉ d.toList) →
        AddedFunction.make w.text returnText = .ok (w.added returnType)) := by
  have hparams : ∀ p ∈ w.params, p.IsSound := fun p hp => ⟨hvalid p hp, hdims p hp⟩
  have hiff : AddedFunction.make w.text returnText = .ok (w.added returnType) ↔
      Separable w.params := by
    unfold AddedFunction.make
    rw [parse_written hname hparams, hreturn]
    by_cases hne : w.params = []
    · rw [if_pos hne, hne]
      refine ⟨fun _ => trivial, fun _ => ?_⟩
      simp only [added, hne]
      rfl
    · rw [if_neg hne]
      constructor
      · intro hmade
        obtain ⟨s, hs, hmade⟩ := Error.bind_eq_ok hmade
        obtain ⟨qs, hqs, hs⟩ := Error.bind_eq_ok hs
        cases hs
        have hargs := congrArg AddedFunction.args (Except.ok.inj hmade)
        have hdefaults := congrArg (List.map AddedArgument.default?) hargs
        simp only [added, List.map_map] at hdefaults
        exact WrittenParameter.separable_of_mapM hparams hne .nil hqs hdefaults
      · intro hsep
        have hread := WrittenParameter.mapM_of_separable hne hparams hsep .nil
        rw [List.nil_append] at hread
        rw [hread]
        simp only [bind, Except.bind, pure, Except.pure, added, List.map_map]
        rfl
  exact ⟨hiff, fun hplain => hiff.mpr (WrittenParameter.separable_of_no_angle hparams hplain)⟩

/-- `bool less = a < b` -/
def comparing : WrittenParameter := ⟨"bool", { name := ["bool"] }, some "less", some "a < b"⟩

theorem comparing_isSound : comparing.IsSound where
  type := by cbv
  trimmed := by cbv
  dims hdims := absurd hdims (by decide)
  name n hn := by
    obtain rfl := Option.some.inj hn
    exact TypeExpr.isParameterName_of_scan (by cbv) (by decide)
  default d hd := by
    obtain rfl := Option.some.inj hd
    exact ⟨by cbv, by decide, .of_all (by decide)⟩

/-- A call operator whose last default compares. -/
def call : WrittenFunction where
  name := "operator()"
  params := [
    ⟨"Map<int, T>&", {
      name := ["Map"], ref := .lvalue, args := [{ name := ["int"] }, { name := ["T"] }] },
      some "m", some "f(1, 2)"⟩,
    ⟨"int[4]", { name := ["int"], dims := ["4"] }, none, none⟩,
    comparing]
  isConst := true

theorem make_text_call :
    call.text = "operator()(Map<int, T>& m = f(1, 2), int[4], bool less = a < b) const" ∧
      IsFunctionName call.name ∧ (∀ p ∈ call.params, p.IsValid) ∧
      (∀ p ∈ call.params, p.DimsMatch) ∧ TypeExpr.parse "void" = .ok { name := ["void"] } ∧
      AddedFunction.make call.text "void" = .ok (call.added { name := ["void"] }) := by
  have hname : IsFunctionName call.name := .inl ⟨[], .nil, rfl⟩
  have hreturn : TypeExpr.parse "void" = .ok { name := ["void"] } := by cbv
  have hcall : IsExpression "f(1, 2)" := by
    refine ⟨by cbv, by decide, (Bracketed.of_all (s := ['f']) (by decide)).append ?_⟩
    exact .group (i := "1, 2".toList) (s := []) (by decide) (.of_all (by decide)) .nil
  have hm : TypeExpr.IsParameterName "m" := TypeExpr.isParameterName_of_scan (by cbv) (by decide)
  have harray : Bracketed typeBrackets TypeExpr.IsOuter "int[4]".toList :=
    (Bracketed.of_all (s := "int".toList) (by decide)).append
      (.group (i := ['4']) (s := []) (by decide) (.of_all (by decide)) .nil)
  have hvalid : ∀ p ∈ call.params, p.IsValid := by
    simp only [call, List.forall_mem_cons]
    refine ⟨?_, ?_, comparing_isSound.toIsValid, by simp⟩
    · exact ⟨by cbv, by cbv, by simpa using hm, by simpa using hcall⟩
    · exact ⟨by cbv, by cbv, by simp, by simp⟩
  have hdims : ∀ p ∈ call.params, p.DimsMatch := by
    simp only [call, List.forall_mem_cons]
    exact ⟨fun hdims => absurd hdims (by decide), fun _ => harray, comparing_isSound.dims, by simp⟩
  have hsep : Separable call.params := by decide
  exact ⟨by cbv, hname, hvalid, hdims, hreturn,
    (make_text_eq_ok_iff call hname hvalid hdims hreturn).1.mpr hsep⟩

/-- A function whose first default compares. -/
def pick : WrittenFunction where
  name := "pick"
  params := [comparing, ⟨"int", { name := ["int"] }, some "n", some "3"⟩]
  isConst := false

/-- The `<` opens a bracket that nothing closes, and the second parameter joins the default. -/
theorem pick_params_merge :
    pick.text = "pick(bool less = a < b, int n = 3)" ∧ IsFunctionName pick.name ∧
      (∀ p ∈ pick.params, p.IsValid ∧ p.DimsMatch) ∧
      TypeExpr.parse "int" = .ok { name := ["int"] } ∧
      AddedFunction.make pick.text "int" = .ok {
        name := "pick"
        args := [⟨"less", { name := ["bool"] }, some "a < b, int n = 3"⟩]
        returnType := { name := ["int"] }
        isConst := false } ∧
      AddedFunction.make pick.text "int" ≠ .ok (pick.added { name := ["int"] }) := by
  have hname : IsFunctionName pick.name := .inr ⟨by cbv, by decide, by decide, by decide⟩
  have hn : TypeExpr.IsParameterName "n" := TypeExpr.isParameterName_of_scan (by cbv) (by decide)
  have hthree : IsExpression "3" := ⟨by cbv, by decide, .of_all (by decide)⟩
  have hparams : ∀ p ∈ pick.params, p.IsSound := by
    simp only [pick, List.forall_mem_cons]
    exact ⟨comparing_isSound, ⟨⟨by cbv, by cbv, by simpa using hn, by simpa using hthree⟩,
      fun hdims => absurd hdims (by decide)⟩, by simp⟩
  have hreturn : TypeExpr.parse "int" = .ok { name := ["int"] } := by cbv
  have hmake : AddedFunction.make pick.text "int" = .ok {
      name := "pick"
      args := [⟨"less", { name := ["bool"] }, some "a < b, int n = 3"⟩]
      returnType := { name := ["int"] }
      isConst := false } := by
    have hsplit : splitTop ',' 0 (spelled pick.params) =
        ["bool less = a < b, int n = 3".toList] := by decide
    have hread : parseParameter "bool less = a < b, int n = 3".toList =
        .ok ⟨{ name := ["bool"] }, some "less", some "a < b, int n = 3"⟩ := by cbv
    unfold AddedFunction.make
    rw [parse_written hname hparams, hsplit, List.mapM_cons, hread, hreturn]
    rfl
  refine ⟨by cbv, hname, fun p hp => ⟨(hparams p hp).toIsValid, (hparams p hp).dims⟩, hreturn,
    hmake, fun hgood => ?_⟩
  rw [hmake] at hgood
  have hlength := congrArg (fun f => f.args.length) (Except.ok.inj hgood)
  exact absurd hlength (by decide)

end WrittenFunction
end BindingModel
