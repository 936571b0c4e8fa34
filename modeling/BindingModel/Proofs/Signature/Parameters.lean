import BindingModel.Proofs.TypeExpr.Brackets

/-! Parameters as a signature writes them, and what is read of them. -/
namespace BindingModel

/-- A parameter with the texts it is written with. -/
structure WrittenParameter where
  typeText : String
  type : TypeExpr
  name? : Option String
  default? : Option String

namespace Signature
open Text TypeExpr

/-- An expression whose parentheses, square and curly brackets match, with no comma and no `=`
outside them. -/
structure IsExpression (d : String) : Prop where
  trimmed : trim d = d
  nonempty : d ≠ ""
  bracketed : Bracketed brackets IsOuter d.toList

end Signature

namespace WrittenParameter
open Text Signature
open TypeExpr (IsParameterName IsOuter)
variable {p : WrittenParameter} {ps : List WrittenParameter} {a r : List Char} {d : String}

def declaration (p : WrittenParameter) : String := p.typeText ++ p.name?.elim "" (" " ++ ·)

def text (p : WrittenParameter) : String := p.declaration ++ p.default?.elim "" (" = " ++ ·)

def parameter (p : WrittenParameter) : Parameter := ⟨p.type, p.name?, p.default?⟩

/-- The texts are a type, an identifier and an expression. -/
structure IsValid (p : WrittenParameter) : Prop where
  type : TypeExpr.parse p.typeText = .ok p.type
  trimmed : trim p.typeText = p.typeText
  name : ∀ n ∈ p.name?, IsParameterName n
  default : ∀ d ∈ p.default?, IsExpression d

/-- If the type has array dimensions, of which any text is read, its brackets match, `<` and `>`
among them. -/
def DimsMatch (p : WrittenParameter) : Prop :=
  '[' ∈ p.typeText.toList → Bracketed typeBrackets IsOuter p.typeText.toList

structure IsSound (p : WrittenParameter) : Prop extends p.IsValid where
  dims : p.DimsMatch

/-! ### Declarations -/

theorem IsSound.tight (h : p.IsSound) :
    Tight p.declaration.toList ∧ p.declaration.toList ≠ [] := by
  have htype : Tight p.typeText.toList := trim_eq_self_iff.mp h.trimmed
  have hne : p.typeText.toList ≠ [] := by
    intro hnil
    obtain ⟨us, hscan, hread⟩ := TypeExpr.parse_eq_ok h.type
    rw [hnil, Token.scan] at hscan
    cases hscan
    cases hread
  unfold declaration
  cases hname : p.name? with
  | none =>
    rw [Option.elim_none, String.append_empty]
    exact ⟨htype, hne⟩
  | some n =>
    obtain ⟨c, s, hn, hblank, -, hs⟩ := (h.name n hname).1
    have hword : Tight (c :: s) := .of_forall <| List.forall_mem_cons.mpr
      ⟨hblank, fun x hx => isBlank_of_isNameChar (hs x hx)⟩
    have hboth := htype.append hne hword (List.cons_ne_nil c s) [' ']
    simpa [hn] using hboth

theorem IsSound.bracketed (h : p.IsSound) :
    Bracketed typeBrackets IsOuter p.declaration.toList := by
  have htype : Bracketed typeBrackets IsOuter p.typeText.toList := by
    by_cases hdims : '[' ∈ p.typeText.toList
    · exact h.dims hdims
    · exact TypeExpr.bracketed_of_parse h.type hdims
  unfold declaration
  cases hname : p.name? with
  | none =>
    rw [Option.elim_none, String.append_empty]
    exact htype
  | some n =>
    obtain ⟨houter, hplain⟩ := TypeExpr.outer_of_isBlank (c := ' ') (by decide)
    have hword := Bracketed.of_forall (TypeExpr.outer_of_isWord (h.name n hname).1)
    simpa using htype.append (.plain houter hplain hword)

theorem IsSound.parseDeclaration (h : p.IsSound) :
    TypeExpr.parseDeclaration p.declaration = .ok (p.type, p.name?) := by
  unfold declaration
  cases hname : p.name? with
  | none =>
    rw [Option.elim_none, String.append_empty]
    exact TypeExpr.parseDeclaration_of_parse h.type
  | some n =>
    rw [Option.elim_some, ← String.append_assoc]
    exact TypeExpr.parseDeclaration_named h.type (h.name n hname)

/-! ### One piece of the parameters -/

theorem isPlain_equals : IsPlain typeBrackets '=' := by simp [IsPlain, typeBrackets, brackets]

theorem isPlain_comma : IsPlain typeBrackets ',' := by simp [IsPlain, typeBrackets, brackets]

theorem allBlank_space : AllBlank [' '] := by
  simp only [AllBlank, List.mem_singleton, forall_eq]
  decide

theorem IsSound.leading (h : p.IsSound) (ha : AllBlank a) :
    Bracketed typeBrackets IsOuter (a ++ p.declaration.toList) :=
  (TypeExpr.bracketed_of_allBlank (fun _ h => h) ha).append h.bracketed

theorem IsSound.parseParameter_declaration (h : p.IsSound) (ha : AllBlank a) :
    parseParameter (a ++ p.declaration.toList) = .ok ⟨p.type, p.name?, none⟩ := by
  have huncut : Uncut '=' 0 (a ++ p.declaration.toList) :=
    (h.leading ha).uncut isPlain_equals (Int.le_refl 0) fun _ c hc => hc.2
  have htrim : trim (.ofList (a ++ p.declaration.toList)) = p.declaration := by
    have htrim := trim_ofList ha h.tight.1 .nil
    rwa [List.append_nil, String.ofList_toList] at htrim
  unfold parseParameter
  rw [splitTop_of_uncut huncut]
  simp only [List.map_cons, List.map_nil, List.headD_cons, List.tail_cons, htrim, joinWith,
    h.parseDeclaration, bind, Except.bind]
  rfl

/-- What stands behind the `=` is the default, whatever it is. -/
theorem IsSound.parseParameter_assigned (h : p.IsSound) (ha : AllBlank a) (r : List Char) :
    parseParameter (a ++ p.declaration.toList ++ " = ".toList ++ r) =
      .ok ⟨p.type, p.name?, if trim (.ofList r) = "" then none else some (trim (.ofList r))⟩ := by
  let w := a ++ p.declaration.toList ++ [' ']
  have hblank := allBlank_space
  have hw : Bracketed typeBrackets IsOuter w :=
    (h.leading ha).append (TypeExpr.bracketed_of_allBlank (fun _ h => h) hblank)
  have huncut : Uncut '=' 0 w := hw.uncut isPlain_equals (Int.le_refl 0) fun _ c hc => hc.2
  have hcut : nesting (nestingAfter 0 w) '=' = 0 := by
    rw [hw.nestingAfter_eq]
    rfl
  have htext : a ++ p.declaration.toList ++ " = ".toList ++ r = w ++ '=' :: (' ' :: r) := by
    simp [w]
  have htrim : trim (.ofList w) = p.declaration := by
    have htrim := trim_ofList ha h.tight.1 hblank
    rwa [← List.append_assoc, String.ofList_toList] at htrim
  have hdefault : trim (joinWith "=" ((splitTop '=' 0 (' ' :: r)).map .ofList)) =
      trim (.ofList r) := by
    have hjoin := joinWith_splitTop '=' 0 (' ' :: r)
    rw [show '='.toString = "=" from rfl] at hjoin
    rw [hjoin]
    exact trim_append_of_allBlank hblank r
  unfold parseParameter
  rw [htext, splitTop_of_cut huncut hcut]
  simp only [List.map_cons, List.headD_cons, List.tail_cons, htrim, hdefault,
    h.parseDeclaration, bind, Except.bind]
  rfl

theorem IsSound.assigned (h : p.IsSound) (ha : AllBlank a) :
    Bracketed typeBrackets (· ≠ ',') (a ++ p.declaration.toList ++ " = ".toList) := by
  refine ((h.leading ha).mono fun c hc => hc.1).append (.of_forall ?_)
  simp [IsPlain, typeBrackets, brackets]

theorem toList_text_none (hdefault : p.default? = none) :
    p.text.toList = p.declaration.toList := by
  simp [text, hdefault]

theorem toList_text_some (hdefault : p.default? = some d) (a : List Char) :
    a ++ p.text.toList = a ++ p.declaration.toList ++ " = ".toList ++ d.toList := by
  simp [text, hdefault]

theorem IsSound.parseParameter_text (h : p.IsSound) (ha : AllBlank a) :
    parseParameter (a ++ p.text.toList) = .ok p.parameter := by
  unfold parameter
  cases hdefault : p.default? with
  | none =>
    rw [toList_text_none hdefault]
    exact h.parseParameter_declaration ha
  | some d =>
    have hd := h.default d hdefault
    rw [toList_text_some hdefault, h.parseParameter_assigned ha, String.ofList_toList, hd.trimmed,
      if_neg hd.nonempty]

/-! ### All parameters -/

/-- Counted with `<` and `>` as brackets, no comma of a default stands outside brackets, and every
default but that of the last parameter ends outside them. -/
def Separable : List WrittenParameter → Prop
  | [] => True
  | p :: ps =>
    (∀ d ∈ p.default?, Uncut ',' 0 d.toList ∧ (ps ≠ [] → nestingAfter 0 d.toList = 0)) ∧
      Separable ps

instance Separable.decidable : ∀ ps, Decidable (Separable ps)
  | [] => inferInstanceAs (Decidable True)
  | _ :: ps =>
    haveI := Separable.decidable ps
    inferInstanceAs (Decidable (_ ∧ _))

theorem separable_of_no_angle (h : ∀ p ∈ ps, p.IsSound)
    (hplain : ∀ p ∈ ps, ∀ d ∈ p.default?, '<' ∉ d.toList ∧ '>' ∉ d.toList) : Separable ps := by
  induction ps with
  | nil => trivial
  | cons p ps ih =>
    obtain ⟨hp, hps⟩ := List.forall_mem_cons.mp h
    obtain ⟨hfirst, hrest⟩ := List.forall_mem_cons.mp hplain
    refine ⟨fun d hd => ?_, ih hps hrest⟩
    have hbracketed := (hp.default d hd).bracketed.angled (hfirst d hd)
    exact ⟨hbracketed.uncut isPlain_comma (Int.le_refl 0) fun _ c hc => hc.1,
      fun _ => hbracketed.nestingAfter_eq⟩

theorem IsSound.uncut_text (h : p.IsSound) (ha : AllBlank a)
    (hd : ∀ d ∈ p.default?, Uncut ',' 0 d.toList) : Uncut ',' 0 (a ++ p.text.toList) := by
  cases hdefault : p.default? with
  | none =>
    rw [toList_text_none hdefault]
    exact (h.leading ha).uncut isPlain_comma (Int.le_refl 0) fun _ c hc => hc.1
  | some d =>
    have hfront := h.assigned ha
    rw [toList_text_some hdefault, uncut_append, hfront.nestingAfter_eq]
    exact ⟨hfront.uncut isPlain_comma (Int.le_refl 0) fun _ c hc => hc, hd d hdefault⟩

theorem IsSound.nestingAfter_text (h : p.IsSound) (ha : AllBlank a) :
    nestingAfter 0 (a ++ p.text.toList) = p.default?.elim 0 fun d => nestingAfter 0 d.toList := by
  cases hdefault : p.default? with
  | none =>
    rw [toList_text_none hdefault]
    exact (h.leading ha).nestingAfter_eq
  | some d =>
    rw [toList_text_some hdefault, nestingAfter_append, (h.assigned ha).nestingAfter_eq]
    rfl

def spelled (ps : List WrittenParameter) : List Char := (joinWith ", " (ps.map text)).toList

theorem spelled_cons_cons (p q : WrittenParameter) (ps : List WrittenParameter) :
    spelled (p :: q :: ps) = p.text.toList ++ ',' :: ([' '] ++ spelled (q :: ps)) := by
  simp [spelled, joinWith]

theorem exists_spelled_cons (p : WrittenParameter) (ps : List WrittenParameter) :
    ∃ r, spelled (p :: ps) = p.text.toList ++ r := by
  cases ps with
  | nil => exact ⟨[], (List.append_nil _).symm⟩
  | cons q ps => exact ⟨_, spelled_cons_cons p q ps⟩

theorem IsSound.tight_text (h : p.IsSound) : Tight p.text.toList ∧ p.text.toList ≠ [] := by
  obtain ⟨hdecl, hne⟩ := h.tight
  cases hdefault : p.default? with
  | none =>
    rw [toList_text_none hdefault]
    exact ⟨hdecl, hne⟩
  | some d =>
    have hd := h.default d hdefault
    have htext := hdecl.append hne (trim_eq_self_iff.mp hd.trimmed)
      (mt String.toList_eq_nil_iff.mp hd.nonempty) " = ".toList
    rw [← List.nil_append p.text.toList, toList_text_some hdefault, List.nil_append,
      List.append_assoc]
    exact ⟨htext, by simp [hne]⟩

theorem spelled_ne_nil (h : ∀ p ∈ ps, p.IsSound) (hne : ps ≠ []) : spelled ps ≠ [] := by
  obtain ⟨p, ps, rfl⟩ := List.exists_cons_of_ne_nil hne
  obtain ⟨r, hr⟩ := exists_spelled_cons p ps
  rw [hr]
  exact List.append_ne_nil_of_left_ne_nil (h p List.mem_cons_self).tight_text.2 r

theorem tight_spelled (h : ∀ p ∈ ps, p.IsSound) : Tight (spelled ps) := by
  induction ps with
  | nil => exact .nil
  | cons p ps ih =>
    obtain ⟨hp, hps⟩ := List.forall_mem_cons.mp h
    obtain ⟨htight, hne⟩ := hp.tight_text
    cases ps with
    | nil => exact htight
    | cons q ps =>
      have hmore := spelled_ne_nil hps (List.cons_ne_nil q ps)
      have hboth := htight.append hne (ih hps) hmore [',', ' ']
      rw [spelled_cons_cons]
      simpa using hboth

theorem IsSound.parensMatch (h : p.IsSound) : ParensMatch p.text.toList := by
  have hdecl := h.bracketed.parensMatch (by decide) (by decide)
  cases hdefault : p.default? with
  | none =>
    rw [toList_text_none hdefault]
    exact hdecl
  | some d =>
    have hd := (h.default d hdefault).bracketed.parensMatch (by decide) (by decide)
    have hequals : Bracketed typeBrackets (fun _ => True) " = ".toList := .of_all (by decide)
    have hassign := hequals.parensMatch (by decide) (by decide)
    rw [← List.nil_append p.text.toList, toList_text_some hdefault, List.nil_append,
      List.append_assoc]
    exact hdecl.append (hassign.append hd)

theorem parensMatch_spelled (h : ∀ p ∈ ps, p.IsSound) : ParensMatch (spelled ps) := by
  induction ps with
  | nil => exact .nil
  | cons p ps ih =>
    obtain ⟨hp, hps⟩ := List.forall_mem_cons.mp h
    cases ps with
    | nil => exact hp.parensMatch
    | cons q ps =>
      rw [spelled_cons_cons]
      exact hp.parensMatch.append
        (.cons (by decide) (by decide) (.cons (by decide) (by decide) (ih hps)))

/-- Where a parameter ends outside all brackets, it is a piece of its own. -/
theorem IsSound.splitTop_text (h : p.IsSound) (ha : AllBlank a)
    (hd : ∀ d ∈ p.default?, Uncut ',' 0 d.toList ∧ nestingAfter 0 d.toList = 0)
    (r : List Char) :
    splitTop ',' 0 (a ++ p.text.toList ++ ',' :: r) =
      (a ++ p.text.toList) :: splitTop ',' 0 r := by
  refine splitTop_of_cut (h.uncut_text ha fun d hmem => (hd d hmem).1) ?_ r
  have hend : nestingAfter 0 (a ++ p.text.toList) = 0 := by
    rw [h.nestingAfter_text ha]
    cases hdefault : p.default? with
    | none => rfl
    | some d => exact (hd d hdefault).2
  rw [hend]
  rfl

theorem mapM_of_separable (hne : ps ≠ []) (h : ∀ p ∈ ps, p.IsSound) (hsep : Separable ps)
    (ha : AllBlank a) :
    (splitTop ',' 0 (a ++ spelled ps)).mapM parseParameter = .ok (ps.map parameter) := by
  induction ps generalizing a with
  | nil => exact absurd rfl hne
  | cons p ps ih =>
    obtain ⟨hp, hps⟩ := List.forall_mem_cons.mp h
    obtain ⟨hfirst, hrest⟩ := hsep
    cases ps with
    | nil =>
      show (splitTop ',' 0 (a ++ p.text.toList)).mapM parseParameter = _
      rw [splitTop_of_uncut (hp.uncut_text ha fun d hd => (hfirst d hd).1), List.mapM_cons,
        hp.parseParameter_text ha]
      rfl
    | cons q ps =>
      have hclosed := fun d hd => (hfirst d hd).imp_right fun h => h (List.cons_ne_nil q ps)
      rw [spelled_cons_cons, ← List.append_assoc, hp.splitTop_text ha hclosed, List.mapM_cons,
        hp.parseParameter_text ha, ih (List.cons_ne_nil q ps) hps hrest allBlank_space]
      rfl

theorem trim_ne_of_shorter {t : List Char} (hd : d.toList = r ++ ',' :: t) :
    trim (.ofList r) ≠ d := by
  intro htrim
  obtain ⟨a, b, -, -, -, hr⟩ := exists_trim r
  rw [htrim] at hr
  have hlength := congrArg List.length hd
  have hlength' := congrArg List.length hr
  simp only [List.length_append, List.length_cons] at hlength hlength'
  omega

theorem trim_ne_of_longer (hd : IsExpression d) (r : List Char) :
    trim (.ofList (d.toList ++ ',' :: r)) ≠ d := by
  intro htrim
  have htight : Tight d.toList := trim_eq_self_iff.mp hd.trimmed
  obtain ⟨a, b, ha, hb, -, hs⟩ := exists_trim (d.toList ++ ',' :: r)
  rw [htrim] at hs
  obtain ⟨c, s, hcs⟩ := List.exists_cons_of_ne_nil (mt String.toList_eq_nil_iff.mp hd.nonempty)
  cases a with
  | nil =>
    rw [List.nil_append, List.append_cancel_left_eq] at hs
    have hcomma := hb ',' (hs ▸ List.mem_cons_self)
    exact absurd hcomma (by decide)
  | cons c' a =>
    rw [hcs, List.cons_append, List.cons_append] at hs
    have hblank := ha c' List.mem_cons_self
    rw [← (List.cons.inj hs).1, htight.1 c (by rw [hcs]; rfl)] at hblank
    cases hblank

/-- A default is read as itself only if its piece ends with it. -/
theorem IsSound.trim_eq_of_mapM (h : p.IsSound) (ha : AllBlank a) (hdefault : p.default? = some d)
    {ws : List (List Char)} {qs : List Parameter}
    (hread : ((a ++ p.declaration.toList ++ " = ".toList ++ r) :: ws).mapM parseParameter = .ok qs)
    (hqs : qs.map (·.default?) = (p :: ps).map (·.default?)) : trim (.ofList r) = d := by
  rw [List.mapM_cons, h.parseParameter_assigned ha] at hread
  obtain ⟨q, hq, hread⟩ := Error.bind_eq_ok hread
  obtain ⟨qs', -, hread⟩ := Error.bind_eq_ok hread
  cases hq
  cases hread
  have hfirst := (List.cons.inj hqs).1
  dsimp only at hfirst
  rw [hdefault] at hfirst
  split at hfirst
  · cases hfirst
  · exact Option.some.inj hfirst

/-- A comma of the default that is counted outside brackets cuts it. -/
theorem IsSound.splitTop_of_default_cut (h : p.IsSound) (ha : AllBlank a)
    (hdefault : p.default? = some d) {w t : List Char} (hd : d.toList = w ++ ',' :: t)
    (hw : Uncut ',' 0 w) (hcut : nesting (nestingAfter 0 w) ',' = 0) (r : List Char) :
    ∃ ws, splitTop ',' 0 (a ++ p.text.toList ++ r) =
      (a ++ p.declaration.toList ++ " = ".toList ++ w) :: ws := by
  have hfront := h.assigned ha
  have hpass := hfront.uncut isPlain_comma (Int.le_refl 0) fun _ c hc => hc
  rw [toList_text_some hdefault, hd, ← List.append_assoc, List.append_assoc, List.cons_append]
  refine ⟨_, splitTop_of_cut (uncut_append.mpr ⟨hpass, ?_⟩) ?_ (t ++ r)⟩
  · rwa [hfront.nestingAfter_eq]
  · rwa [nestingAfter_append, hfront.nestingAfter_eq]

/-- A default that is counted as ending inside brackets takes the comma behind it along. -/
theorem IsSound.splitTop_of_default_open (h : p.IsSound) (ha : AllBlank a)
    (hdefault : p.default? = some d) (hd : Uncut ',' 0 d.toList)
    (hopen : nestingAfter 0 d.toList ≠ 0) (r : List Char) :
    ∃ w ws, splitTop ',' 0 (a ++ p.text.toList ++ ',' :: r) =
      (a ++ p.declaration.toList ++ " = ".toList ++ (d.toList ++ ',' :: w)) :: ws := by
  let n := nestingAfter 0 d.toList
  have hend : nestingAfter 0 (a ++ p.text.toList) = n := by
    rw [h.nestingAfter_text ha, hdefault]
    rfl
  obtain ⟨w, ws, hsplit⟩ := exists_splitTop ',' n r
  have hcomma : splitTop ',' n (',' :: r) = (',' :: w) :: ws := by
    have hsame : nesting n ',' = n := rfl
    rw [splitTop, hsame, if_neg fun hcut => hopen hcut.2, hsplit]
  have huncut := h.uncut_text ha fun d' hd' => by
    obtain rfl := Option.some.inj (hdefault.symm.trans hd')
    exact hd
  refine ⟨w, ws, ?_⟩
  rw [splitTop_append huncut (hend ▸ hcomma), toList_text_some hdefault, List.append_assoc]

/-- Only the texts of separable parameters are read with their defaults. -/
theorem separable_of_mapM (h : ∀ p ∈ ps, p.IsSound) (hne : ps ≠ []) (ha : AllBlank a)
    {qs : List Parameter}
    (hread : (splitTop ',' 0 (a ++ spelled ps)).mapM parseParameter = .ok qs)
    (hqs : qs.map (·.default?) = ps.map (·.default?)) : Separable ps := by
  induction ps generalizing a qs with
  | nil => exact absurd rfl hne
  | cons p ps ih =>
    obtain ⟨hp, hps⟩ := List.forall_mem_cons.mp h
    have hfirst : ∀ d ∈ p.default?,
        Uncut ',' 0 d.toList ∧ (ps ≠ [] → nestingAfter 0 d.toList = 0) := by
      intro d hd
      have huncut : Uncut ',' 0 d.toList := by
        obtain huncut | ⟨w, t, hcut, hw, hend⟩ := uncut_or_cut ',' 0 d.toList
        · exact huncut
        · obtain ⟨r, hspelled⟩ := exists_spelled_cons p ps
          obtain ⟨ws, hsplit⟩ := hp.splitTop_of_default_cut ha hd hcut hw hend r
          rw [hspelled, ← List.append_assoc, hsplit] at hread
          exact absurd (hp.trim_eq_of_mapM ha hd hread hqs) (trim_ne_of_shorter hcut)
      refine ⟨huncut, fun hmore => ?_⟩
      by_contra hopen
      obtain ⟨q, qs', rfl⟩ := List.exists_cons_of_ne_nil hmore
      obtain ⟨w, ws, hsplit⟩ := hp.splitTop_of_default_open ha hd huncut hopen _
      rw [spelled_cons_cons, ← List.append_assoc, hsplit] at hread
      exact trim_ne_of_longer (hp.default d hd) w (hp.trim_eq_of_mapM ha hd hread hqs)
    refine ⟨hfirst, ?_⟩
    cases ps with
    | nil => trivial
    | cons q ps =>
      have hclosed := fun d hd => (hfirst d hd).imp_right fun h => h (List.cons_ne_nil q ps)
      rw [spelled_cons_cons, ← List.append_assoc, hp.splitTop_text ha hclosed, List.mapM_cons]
        at hread
      obtain ⟨q', -, hread⟩ := Error.bind_eq_ok hread
      obtain ⟨qs', hrest, hread⟩ := Error.bind_eq_ok hread
      cases hread
      exact ih hps (List.cons_ne_nil q ps) allBlank_space hrest (List.cons.inj hqs).2

end WrittenParameter
end BindingModel
