import BindingModel.Proofs.Error
import BindingModel.Proofs.Signature.Nesting
import BindingModel.Proofs.Signature.Pieces
import BindingModel.Proofs.Text.Trim
import BindingModel.Proofs.TypeExpr.Declarations

/-! The brackets of a type match, and commas stand only between them. Array dimensions may hold
anything. -/
namespace BindingModel.TypeExpr
open Text Token Signature
variable {s : List Char} {us vs ts rest : List Token} {p : Char → Prop}

/-! ### The text of units -/

/-- The text consists of the units in this order, with nothing but blanks between them. -/
inductive Covers : List Char → List Token → Prop
  | nil : Covers [] []
  | blank {c : Char} {s : List Char} {us : List Token} (hc : isBlank c = true) (h : Covers s us) :
      Covers (c :: s) us
  | unit {u : Token} {s : List Char} {us : List Token} (h : Covers s us) :
      Covers (u.text.toList ++ s) (u :: us)

theorem covers_of_scan (h : scan s = some us) : Covers s us := by
  obtain ⟨n, hrun⟩ := scan_eq_some_iff.mp h
  generalize hrest : ([] : List Char) = rest at hrun
  induction hrun with
  | start => exact hrest ▸ .nil
  | pass hpass hrun ih =>
    subst hrest
    have hcovers := ih (scan_eq_some_of_passes hrun) rfl
    cases hpass with
    | blank hc => exact .blank hc hcovers
    | unit => exact .unit hcovers

theorem Covers.split (h : Covers s (us ++ vs)) :
    ∃ a b, s = a ++ b ∧ Covers a us ∧ Covers b vs := by
  generalize hunits : us ++ vs = ws at h
  induction h generalizing us with
  | nil =>
    obtain ⟨rfl, rfl⟩ := List.append_eq_nil_iff.mp hunits
    exact ⟨[], [], rfl, .nil, .nil⟩
  | @blank c s ws hc _ ih =>
    obtain ⟨a, b, rfl, ha, hb⟩ := ih hunits
    exact ⟨c :: a, b, rfl, .blank hc ha, hb⟩
  | @unit u s ws h ih =>
    cases us with
    | nil =>
      rw [List.nil_append] at hunits
      exact ⟨[], _, rfl, .nil, hunits ▸ .unit h⟩
    | cons u' us =>
      obtain ⟨rfl, htail⟩ := List.cons.inj hunits
      obtain ⟨a, b, rfl, ha, hb⟩ := ih htail
      exact ⟨_, b, (List.append_assoc _ _ _).symm, .unit ha, hb⟩

theorem Covers.allBlank (h : Covers s []) : AllBlank s := by
  generalize hunits : ([] : List Token) = us at h
  induction h with
  | nil => exact .nil
  | blank hc _ ih => exact List.forall_mem_cons.mpr ⟨hc, ih hunits⟩
  | unit => cases hunits

theorem Covers.single {u : Token} (h : Covers s [u]) :
    ∃ a b, s = a ++ (u.text.toList ++ b) ∧ AllBlank a ∧ AllBlank b := by
  generalize hunits : [u] = us at h
  induction h with
  | nil => cases hunits
  | @blank c s _ hc _ ih =>
    obtain ⟨a, b, rfl, ha, hb⟩ := ih hunits
    exact ⟨c :: a, b, rfl, List.forall_mem_cons.mpr ⟨hc, ha⟩, hb⟩
  | @unit u s us h =>
    cases hunits
    exact ⟨[], s, rfl, .nil, h.allBlank⟩

/-! ### Characters that are neither brackets nor separators -/

/-- The character separates neither parameters nor a default from its parameter. -/
def IsOuter (c : Char) : Prop := c ≠ ',' ∧ c ≠ '='

instance : DecidablePred IsOuter := fun _ => inferInstanceAs (Decidable (_ ∧ _))

def marks : List Char := ['<', '>', '(', ')', '[', ']', '\x7b', '\x7d', ',', '=']

theorem outer_of_not_mem {c : Char} (h : c ∉ marks) : IsOuter c ∧ IsPlain typeBrackets c := by
  simp only [marks, List.mem_cons, List.not_mem_nil, or_false, not_or] at h
  simp [IsOuter, IsPlain, typeBrackets, brackets, h]

theorem outer_of_class {q : Char → Bool} (hq : marks.all (!q ·) = true) {c : Char}
    (hc : q c = true) : IsOuter c ∧ IsPlain typeBrackets c := by
  refine outer_of_not_mem fun hm => ?_
  have hnot := List.all_eq_true.mp hq c hm
  rw [hc] at hnot
  cases hnot

theorem outer_of_isBlank {c : Char} (hc : isBlank c = true) :
    IsOuter c ∧ IsPlain typeBrackets c := outer_of_class (by decide) hc

theorem outer_of_isWord {w : String} (hw : IsWord w) :
    ∀ c ∈ w.toList, IsOuter c ∧ IsPlain typeBrackets c := by
  obtain ⟨c, s, hw, -, hc, hs⟩ := hw
  rw [hw]
  exact List.forall_mem_cons.mpr ⟨outer_of_class (q := isNameStart) (by decide) hc,
    fun d hd => outer_of_class (q := isNameChar) (by decide) (hs d hd)⟩

/-! ### Units whose brackets match -/

/-- However the units are spaced, the brackets match and the characters outside are as `p` says. -/
def BracketedUnits (p : Char → Prop) (us : List Token) : Prop :=
  ∀ s, Covers s us → Bracketed typeBrackets p s

/-- Read from the front, units whose brackets match come before the rest. -/
def Consumes (p : Char → Prop) (ts rest : List Token) : Prop :=
  ∃ us, ts = us ++ rest ∧ BracketedUnits p us

theorem bracketed_of_allBlank (hp : ∀ c, IsOuter c → p c) (h : AllBlank s) :
    Bracketed typeBrackets p s := by
  refine .of_forall fun c hc => ?_
  obtain ⟨houter, hplain⟩ := outer_of_isBlank (h c hc)
  exact ⟨hp c houter, hplain⟩

/-- A unit that has no bracket. -/
theorem Consumes.unit {u : Token} (hp : ∀ c, IsOuter c → p c)
    (h : ∀ c ∈ u.text.toList, p c ∧ IsPlain typeBrackets c) (ts : List Token) :
    Consumes p (u :: ts) ts := by
  refine ⟨[u], rfl, fun s hs => ?_⟩
  obtain ⟨a, b, rfl, ha, hb⟩ := hs.single
  exact (bracketed_of_allBlank hp ha).append ((Bracketed.of_forall h).append
    (bracketed_of_allBlank hp hb))

theorem Consumes.trans (hp : Consumes p ts us) (hq : Consumes p us rest) :
    Consumes p ts rest := by
  obtain ⟨vs, rfl, hvs⟩ := hp
  obtain ⟨ws, rfl, hws⟩ := hq
  refine ⟨vs ++ ws, by simp, fun s hs => ?_⟩
  obtain ⟨a, b, rfl, ha, hb⟩ := hs.split
  exact (hvs a ha).append (hws b hb)

theorem Consumes.refl (ts : List Token) : Consumes IsOuter ts ts :=
  ⟨[], rfl, fun _ hs => bracketed_of_allBlank (fun _ h => h) hs.allBlank⟩

theorem Consumes.any (h : Consumes IsOuter ts rest) : Consumes (fun _ => True) ts rest := by
  obtain ⟨us, rfl, hus⟩ := h
  exact ⟨us, rfl, fun s hs => (hus s hs).mono fun _ _ => trivial⟩

/-- Units between two that are brackets. -/
theorem Consumes.group {o c : Token} (x y : Char) (ho : o = ofChar x) (hc : c = ofChar y)
    (hpair : (x, y) ∈ typeBrackets) (h : Consumes (fun _ => True) ts (c :: rest)) :
    Consumes IsOuter (o :: ts) rest := by
  obtain ⟨us, rfl, hus⟩ := h
  refine ⟨o :: (us ++ [c]), by simp, fun s hs => ?_⟩
  rw [← List.singleton_append] at hs
  obtain ⟨a, t, rfl, ha, ht⟩ := hs.split
  obtain ⟨m, b, rfl, hm, hb⟩ := ht.split
  obtain ⟨a, a', rfl, hablank, ha'⟩ := ha.single
  obtain ⟨b, b', rfl, hbblank, hb'⟩ := hb.single
  rw [ho, hc, text_ofChar, text_ofChar]
  have hany : ∀ {s}, AllBlank s → Bracketed typeBrackets (fun _ => True) s :=
    bracketed_of_allBlank fun _ _ => trivial
  have houter : ∀ {s}, AllBlank s → Bracketed typeBrackets IsOuter s :=
    bracketed_of_allBlank fun _ h => h
  have hinside := (hany ha').append ((hus m hm).append (hany hbblank))
  simpa using (houter hablank).append (.group hpair hinside (houter hb'))

/-! ### What is read of a type -/

/-- Units of a scan without array dimensions. -/
def IsDimFree (ts : List Token) : Prop := ∀ u ∈ ts, u.Lexed ∧ u ≠ .leftBracket

theorem IsDimFree.after (h : IsDimFree ts) (hconsumes : Consumes p ts rest) : IsDimFree rest := by
  obtain ⟨us, rfl, -⟩ := hconsumes
  exact fun u hu => h u (List.mem_append_right us hu)

theorem Consumes.ident {w : String} (h : IsDimFree (.ident w :: ts)) :
    Consumes IsOuter (.ident w :: ts) ts :=
  .unit (u := .ident w) (fun _ h => h) (outer_of_isWord (h _ List.mem_cons_self).1) ts

theorem Consumes.number {d : String} (h : IsDimFree (.number d :: ts)) :
    Consumes IsOuter (.number d :: ts) ts := by
  obtain ⟨c, s, hd, -, -, hc, hs⟩ := (h _ List.mem_cons_self).1
  refine .unit (fun _ h => h) ?_ ts
  rw [Token.text, hd]
  refine List.forall_mem_cons.mpr ⟨?_,
    fun d hd => outer_of_class (q := isNumberChar) (by decide) (hs d hd)⟩
  refine outer_of_class (q := fun c => c.isDigit || c == '-') (by decide) ?_
  unfold startsNumber at hc
  rw [Bool.or_eq_true] at hc ⊢
  exact hc.imp_right fun h => (Bool.and_eq_true _ _ ▸ h).1

theorem Consumes.mark {u : Token} (hu : u ∈ [scope, star, amp, ampAmp, ellipsis])
    (ts : List Token) : Consumes IsOuter (u :: ts) ts := by
  have hall : ∀ u ∈ [scope, star, amp, ampAmp, ellipsis],
      u.text.toList.all (· ∉ marks) = true := by decide
  refine .unit (fun _ h => h) (fun c hc => outer_of_not_mem ?_) ts
  simpa using List.all_eq_true.mp (hall u hu) c hc

theorem Consumes.comma (ts : List Token) : Consumes (fun _ => True) (.comma :: ts) ts := by
  refine .unit (fun _ _ => trivial) (fun c hc => ⟨trivial, ?_⟩) ts
  obtain rfl : c = ',' := by simpa [Token.text] using hc
  simp [IsPlain, typeBrackets, brackets]

/-- Of units without array dimensions the reader takes such whose brackets match. -/
def Encloses {α : Type} (rd : Reader α) : Prop :=
  ∀ ts a rest, IsDimFree ts → rd ts = .ok (a, rest) → Consumes IsOuter ts rest

theorem readSegment_consumes (w : String) (h : IsDimFree ts) :
    Consumes IsOuter ts (readSegment w ts).2 := by
  induction ts generalizing w with
  | nil => exact .refl _
  | cons t ts ih =>
    unfold readSegment
    split
    · next heq =>
      cases heq
      have hword := Consumes.ident h
      split
      · exact hword.trans (ih _ (h.after hword))
      · exact .refl _
    · exact .refl _

section
variable {src : String} {rd : Reader TypeExpr} (hrd : Encloses rd)
include hrd

theorem ReadsList.consumes {skip : List Token → List Token}
    (hskip : ∀ {us}, IsDimFree us → Consumes IsOuter us (skip us)) {close : Token}
    {as : List TypeExpr} (h : ReadsList rd skip close ts as rest) (hts : IsDimFree ts) :
    Consumes (fun _ => True) ts (close :: rest) := by
  induction h with
  | last ht hclose =>
    have htype := hrd _ _ _ hts ht
    rw [← hclose]
    exact (htype.trans (hskip (hts.after htype))).any
  | more ht hcomma _ ih =>
    have htype := hrd _ _ _ hts ht
    have hfirst := htype.trans (hskip (hts.after htype))
    rw [hcomma] at hfirst
    have hnext := hfirst.any.trans (.comma _)
    exact hnext.trans (ih (hts.after hnext))

theorem readTemplate_encloses : Encloses (readTemplate src rd) := by
  intro ts args rest h hread
  unfold readTemplate at hread
  split at hread
  · cases hread
    exact .group '<' '>' rfl rfl (by decide) (Consumes.refl _).any
  · next ts _ =>
    have hinside : IsDimFree ts := fun u hu => h u (List.mem_cons_of_mem _ hu)
    have hlist := (readArguments_eq_ok_iff.mp hread).1
    exact .group '<' '>' rfl rfl (by decide) (hlist.consumes hrd (fun _ => .refl _) hinside)
  · cases hread
    exact .refl _

theorem ReadsSegments.consumes {segs : List String} {args : List TypeExpr}
    (h : ReadsSegments src rd ts segs args rest) (hts : IsDimFree ts) :
    Consumes IsOuter ts rest := by
  have hfront : ∀ {w seg : String} {ts us vs : List Token} {args : List TypeExpr},
      IsDimFree (.ident w :: ts) → readSegment w ts = (seg, us) →
        readTemplate src rd us = .ok (args, vs) → Consumes IsOuter (.ident w :: ts) vs := by
    intro w seg ts us vs args hts hseg hargs
    have hword := Consumes.ident hts
    have hsegment := hword.trans (readSegment_consumes w (hts.after hword))
    rw [hseg] at hsegment
    exact hsegment.trans (readTemplate_encloses hrd _ _ _ (hts.after hsegment) hargs)
  induction h with
  | last hseg hargs _ => exact hfront hts hseg hargs
  | scope hseg hdropped _ ih =>
    have hscope := (hfront hts hseg hdropped).trans (.mark (u := .scope) (by decide) _)
    exact hscope.trans (ih (hts.after hscope))

theorem readName_encloses : Encloses (readName src rd) := by
  intro ts r rest h hread
  cases ts with
  | nil => cases hread
  | cons t ts =>
    cases t with
    | ellipsis =>
      cases hread
      exact .mark (by decide) _
    | number d =>
      cases hread
      exact .number h
    | scope =>
      have hscope := Consumes.mark (u := .scope) (by decide) ts
      exact hscope.trans ((readSegments_eq_ok_iff.mp hread).1.consumes hrd (h.after hscope))
    | ident w => exact (readSegments_eq_ok_iff.mp hread).1.consumes hrd h
    | _ => cases hread

omit hrd in
theorem skipIdent_consumes (h : IsDimFree ts) : Consumes IsOuter ts (skipIdent ts) := by
  unfold skipIdent
  split
  · exact .ident h
  · exact .refl _

omit hrd in
theorem eq_cons_of_expect {tok : Token} (h : expect src tok ts = .ok rest) : ts = tok :: rest := by
  cases ts with
  | nil => cases h
  | cons t ts =>
    rw [expect] at h
    split at h
    · next heq =>
      cases h
      rw [heq]
    · cases h

theorem readPointer_encloses : Encloses (readPointer src rd) := by
  intro ts ps? rest h hread
  unfold readPointer at hread
  split at hread
  · next us =>
    obtain ⟨vs, hclose, hread⟩ := Error.bind_eq_ok hread
    obtain ⟨ws, hopen, hread⟩ := Error.bind_eq_ok hread
    have hus : IsDimFree us := fun u hu => h u (by simp [hu])
    have hname := (Consumes.mark (u := .star) (by decide) us).trans (skipIdent_consumes hus)
    rw [eq_cons_of_expect hclose] at hname
    have hpointer : Consumes IsOuter (.leftParen :: .star :: us) vs :=
      .group '(' ')' rfl rfl (by decide) hname.any
    rw [eq_cons_of_expect hopen] at hpointer
    refine hpointer.trans (.group '(' ')' rfl rfl (by decide) ?_)
    split at hread
    · cases hread
      exact (Consumes.refl _).any
    · obtain ⟨⟨ps, us⟩, hps, hread⟩ := Error.bind_eq_ok hread
      cases hread
      have hws : IsDimFree ws := fun u hu => h.after hpointer u (List.mem_cons_of_mem _ hu)
      exact (readParams_eq_ok_iff.mp hps).1.consumes hrd skipIdent_consumes hws
  · cases hread
    exact .refl _

end

theorem readCv_consumes (c v : Bool) (h : IsDimFree ts) :
    Consumes IsOuter ts (readCv c v ts).2 := by
  fun_induction readCv c v ts with
  | case1 c v ts ih => exact (Consumes.ident h).trans (ih (h.after (.ident h)))
  | case2 c v ts ih => exact (Consumes.ident h).trans (ih (h.after (.ident h)))
  | case3 => exact .refl _

theorem skipElaborated_consumes (h : IsDimFree ts) :
    Consumes IsOuter ts (skipElaborated ts) := by
  unfold skipElaborated
  split
  · split
    · exact .ident h
    · exact .refl _
  · exact .refl _

theorem readDeclarators_consumes (n : Nat) (r : RefKind) (afterStar : Bool) (h : IsDimFree ts) :
    Consumes IsOuter ts (readDeclarators n r afterStar ts).2 := by
  have hmark : ∀ {u : Token} {ts rest : List Token}, u ∈ [scope, star, amp, ampAmp, ellipsis] →
      IsDimFree (u :: ts) → (IsDimFree ts → Consumes IsOuter ts rest) →
        Consumes IsOuter (u :: ts) rest := fun hu h ih =>
    (Consumes.mark hu _).trans (ih (h.after (.mark hu _)))
  fun_induction readDeclarators n r afterStar ts with
  | case1 n r afterStar ts ih => exact hmark (by decide) h ih
  | case2 n r afterStar ts ih => exact hmark (by decide) h ih
  | case3 n r afterStar ts ih => exact hmark (by decide) h ih
  | case4 n r afterStar w ts hw ih => exact (Consumes.ident h).trans (ih (h.after (.ident h)))
  | case5 => exact .refl _
  | case6 => exact .refl _

theorem readDimensions_of_isDimFree {src : String} (h : IsDimFree ts) :
    readDimensions src none ts = .ok ([], ts) := by
  unfold readDimensions
  split
  · exact absurd rfl (h .leftBracket List.mem_cons_self).2
  · rfl
  · next heq => cases heq
  · next heq => cases heq
  · next heq => cases heq

theorem readType_encloses (src : String) (budget : Nat) : Encloses (readType src budget) := by
  induction budget with
  | zero => exact fun ts t rest _ hread => by cases hread
  | succ budget ih =>
    intro ts t rest h hread
    rw [readType] at hread
    obtain ⟨⟨⟨name, args⟩, ts₂⟩, hname, hread⟩ := Error.bind_eq_ok hread
    obtain ⟨⟨params?, ts₅⟩, hparams, hread⟩ := Error.bind_eq_ok hread
    obtain ⟨⟨dims, ts₆⟩, hdims, hread⟩ := Error.bind_eq_ok hread
    cases hread
    have hcv := readCv_consumes false false h
    have hskip := hcv.trans (skipElaborated_consumes (h.after hcv))
    have hnamed := hskip.trans (readName_encloses ih _ _ _ (h.after hskip) hname)
    let cv := (readCv false false ts).1
    have hcv' := hnamed.trans (readCv_consumes cv.1 cv.2 (h.after hnamed))
    have hdecl := hcv'.trans (readDeclarators_consumes 0 .none false (h.after hcv'))
    have hpointer := hdecl.trans (readPointer_encloses ih _ _ _ (h.after hdecl) hparams)
    rw [readDimensions_of_isDimFree (h.after hpointer)] at hdims
    cases hdims
    exact hpointer

/-- The brackets of a type without array dimensions match, and outside them is no separator. -/
theorem bracketed_of_parse {s : String} {t : TypeExpr} (h : parse s = .ok t)
    (hdims : '[' ∉ s.toList) : Bracketed typeBrackets IsOuter s.toList := by
  obtain ⟨us, hscan, hread⟩ := parse_eq_ok h
  have hcovers := covers_of_scan hscan
  have hfree : IsDimFree us := by
    refine fun u hu => ⟨allLexed_of_scan hscan u hu, ?_⟩
    rintro rfl
    obtain ⟨vs, ws, rfl⟩ := List.append_of_mem hu
    obtain ⟨a, b, hs, -, hb⟩ := hcovers.split
    rw [← List.singleton_append] at hb
    obtain ⟨m, b, rfl, hm, -⟩ := hb.split
    obtain ⟨m, m', rfl, -⟩ := hm.single
    exact hdims (by simp [hs, Token.text])
  obtain ⟨vs, hvs, hbracketed⟩ := readType_encloses _ _ _ _ _ hfree hread
  rw [List.append_nil] at hvs
  exact hbracketed _ (hvs ▸ hcovers)

end BindingModel.TypeExpr
