import BindingModel.Proofs.Error
import BindingModel.Proofs.TypeExpr.Declarations
import BindingModel.Proofs.TypeExpr.Rereading
import Mathlib

/-! Canonical spellings lose nothing: what is read of a text is read again of its spelling. -/
namespace BindingModel.TypeExpr
open Token

/-! ### Parts of a type -/

mutual

/-- The type, its template arguments and parameters, and their parts are all as `p` says. -/
def allParts (p : TypeExpr → Bool) : TypeExpr → Bool
  | ⟨name, c, v, n, r, dims, args, params?⟩ =>
    p ⟨name, c, v, n, r, dims, args, params?⟩ && allPartsOfList p args && allPartsOfParams p params?

def allPartsOfList (p : TypeExpr → Bool) : List TypeExpr → Bool
  | [] => true
  | t :: ts => t.allParts p && allPartsOfList p ts

def allPartsOfParams (p : TypeExpr → Bool) : Option (List TypeExpr) → Bool
  | none => true
  | some ts => allPartsOfList p ts

end

theorem allPartsOfList_iff {p : TypeExpr → Bool} {ts : List TypeExpr} :
    allPartsOfList p ts = true ↔ ∀ t ∈ ts, t.allParts p = true := by
  induction ts with
  | nil => simp [allPartsOfList]
  | cons t ts ih => simp [allPartsOfList, ih]

theorem allParts_iff {p : TypeExpr → Bool} {t : TypeExpr} :
    t.allParts p = true ↔ p t = true ∧ (∀ a ∈ t.args, a.allParts p = true) ∧
      ∀ a ∈ t.params, a.allParts p = true := by
  obtain ⟨name, c, v, n, r, dims, args, params?⟩ := t
  rw [allParts, Bool.and_eq_true, Bool.and_eq_true, allPartsOfList_iff, and_assoc]
  cases params? with
  | none => simp [allPartsOfParams, params]
  | some ps => simp [allPartsOfParams, params, allPartsOfList_iff]

mutual

theorem allParts_mono {p q : TypeExpr → Bool} (hpq : ∀ t, p t = true → q t = true) :
    ∀ {t : TypeExpr}, t.allParts p = true → t.allParts q = true
  | ⟨name, c, v, n, r, dims, args, params?⟩, h => by
    rw [allParts, Bool.and_eq_true, Bool.and_eq_true] at h ⊢
    exact ⟨⟨hpq _ h.1.1, allPartsOfList_mono hpq h.1.2⟩, allPartsOfParams_mono hpq h.2⟩

theorem allPartsOfList_mono {p q : TypeExpr → Bool} (hpq : ∀ t, p t = true → q t = true) :
    ∀ {ts : List TypeExpr}, allPartsOfList p ts = true → allPartsOfList q ts = true
  | [], _ => rfl
  | t :: ts, h => by
    rw [allPartsOfList, Bool.and_eq_true] at h ⊢
    exact ⟨allParts_mono hpq h.1, allPartsOfList_mono hpq h.2⟩

theorem allPartsOfParams_mono {p q : TypeExpr → Bool} (hpq : ∀ t, p t = true → q t = true) :
    ∀ {ts? : Option (List TypeExpr)}, allPartsOfParams p ts? = true →
      allPartsOfParams q ts? = true
  | none, _ => rfl
  | some _, h => allPartsOfList_mono hpq h

end

/-- The dimension is unbound, or a single name or number. -/
def isPlainDim (d : String) : Bool :=
  d == "" || scan d.toList == some [.ident d] || scan d.toList == some [.number d]

def hasPlainDims (t : TypeExpr) : Bool := t.dims.all isPlainDim

/-- The name does not begin with a word that is passed over where a name is expected. -/
def hasPlainName (t : TypeExpr) : Bool := t.name.head?.all (· ∉ keywords)

/-- Neither a function pointer nor spelled with words that are read as something else. -/
def isPlain (t : TypeExpr) : Bool :=
  !t.isFunctionPointer && t.dims.all isPlainDim && t.hasPlainName

/-- As a plain type, or a function pointer whose result has no indirection and no reference. -/
def isRereadable (t : TypeExpr) : Bool :=
  (!t.isFunctionPointer || t.pointers == 0 && t.ref == .none) && t.dims.all isPlainDim &&
    t.hasPlainName

theorem isRereadable_iff {t : TypeExpr} :
    t.isRereadable = true ↔ (t.isFunctionPointer = true → t.pointers = 0 ∧ t.ref = .none) ∧
      t.hasPlainDims = true ∧ t.hasPlainName = true := by
  unfold isRereadable hasPlainDims
  cases t.isFunctionPointer <;> simp [and_assoc]

/-! ### What is read of a scan -/

/-- Of units of a scan the reader makes values as `p` says, and leaves such units. -/
def Yields {α : Type} (rd : Reader α) (p : α → Prop) : Prop :=
  ∀ ts a rest, AllLexed ts → rd ts = .ok (a, rest) → p a ∧ AllLexed rest

theorem readSegment_yields {w seg : String} {ts rest : List Token} (hw : IsWord w)
    (hts : AllLexed ts) (h : readSegment w ts = (seg, rest)) :
    (∃ ws, SpellsSegment seg (w :: ws)) ∧ AllLexed rest := by
  induction ts generalizing w seg rest with
  | nil =>
    cases h
    exact ⟨⟨[], .word hw⟩, hts⟩
  | cons t ts ih =>
    unfold readSegment at h
    split at h
    · next u ts' heq =>
      cases heq
      split at h
      · next hb =>
        have hu : IsWord u := hts.head
        obtain ⟨⟨ws, hs⟩, hrest⟩ := ih hu hts.tail rfl
        cases h
        exact ⟨⟨_, .fold hw hb.1 hb.2 hs⟩, hrest⟩
      · cases h
        exact ⟨⟨[], .word hw⟩, hts⟩
    · cases h
      exact ⟨⟨[], .word hw⟩, hts⟩

section
variable {src : String} {rd : Reader TypeExpr} {p : TypeExpr → Prop} (hrd : Yields rd p)
include hrd

theorem ReadsList.yields {skip : List Token → List Token}
    (hskip : ∀ {us}, AllLexed us → AllLexed (skip us)) {close : Token} {ts rest : List Token}
    {as : List TypeExpr} (h : ReadsList rd skip close ts as rest) (hts : AllLexed ts) :
    (∀ a ∈ as, p a) ∧ AllLexed rest := by
  induction h with
  | last ht hclose =>
    obtain ⟨hp, hus⟩ := hrd _ _ _ hts ht
    have hrest := hskip hus
    rw [hclose] at hrest
    exact ⟨by simpa using hp, hrest.tail⟩
  | more ht hcomma _ ih =>
    obtain ⟨hp, hus⟩ := hrd _ _ _ hts ht
    have hnext := hskip hus
    rw [hcomma] at hnext
    obtain ⟨has, hrest⟩ := ih hnext.tail
    exact ⟨List.forall_mem_cons.mpr ⟨hp, has⟩, hrest⟩

theorem readTemplate_yields : Yields (readTemplate src rd) fun args => ∀ a ∈ args, p a := by
  intro ts args rest hts h
  unfold readTemplate at h
  split at h
  · cases h
    exact ⟨by simp, hts.tail.tail⟩
  · exact (readArguments_eq_ok_iff.mp h).1.yields hrd id hts.tail
  · cases h
    exact ⟨by simp, hts⟩

theorem ReadsSegments.yields {ts rest : List Token} {segs : List String} {args : List TypeExpr}
    (h : ReadsSegments src rd ts segs args rest) (hts : AllLexed ts) :
    ((∃ us, SpellsSegments segs us) ∧ ∀ a ∈ args, p a) ∧ AllLexed rest := by
  induction h with
  | last hseg hargs _ =>
    obtain ⟨⟨ws, hspell⟩, hus⟩ := readSegment_yields hts.head hts.tail hseg
    obtain ⟨hall, hrest⟩ := readTemplate_yields hrd _ _ _ hus hargs
    exact ⟨⟨⟨_, .last hspell⟩, hall⟩, hrest⟩
  | scope hseg hdropped _ ih =>
    obtain ⟨⟨ws, hspell⟩, hus⟩ := readSegment_yields hts.head hts.tail hseg
    obtain ⟨-, hvs⟩ := readTemplate_yields hrd _ _ _ hus hdropped
    obtain ⟨⟨⟨us, hsegs⟩, hall⟩, hrest⟩ := ih hvs.tail
    exact ⟨⟨⟨_, .scope hspell hsegs⟩, hall⟩, hrest⟩

/-- A name is `...`, a number or made of segments, and only those have template arguments. -/
theorem readName_yields : Yields (readName src rd) fun r =>
    (r = (["..."], []) ∨ (∃ d, IsNumeral d ∧ r = ([d], [])) ∨ ∃ us, SpellsSegments r.1 us) ∧
      ∀ a ∈ r.2, p a := by
  intro ts r rest hts h
  unfold readName at h
  split at h
  · cases h
    exact ⟨⟨.inl rfl, by simp⟩, hts.tail⟩
  · next d us =>
    cases h
    have hd : IsNumeral d := hts.head
    exact ⟨⟨.inr (.inl ⟨d, hd, rfl⟩), by simp⟩, hts.tail⟩
  · obtain ⟨⟨hsegs, hargs⟩, hrest⟩ := (readSegments_eq_ok_iff.mp h).1.yields hrd hts.tail
    exact ⟨⟨.inr (.inr hsegs), hargs⟩, hrest⟩
  · obtain ⟨⟨hsegs, hargs⟩, hrest⟩ := (readSegments_eq_ok_iff.mp h).1.yields hrd hts
    exact ⟨⟨.inr (.inr hsegs), hargs⟩, hrest⟩
  · cases h
  · cases h

omit hrd in
theorem lexed_skipIdent {ts : List Token} (hts : AllLexed ts) : AllLexed (skipIdent ts) := by
  unfold skipIdent
  split
  · exact hts.tail
  · exact hts

omit hrd in
theorem lexed_expect {tok : Token} {ts rest : List Token} (hts : AllLexed ts)
    (h : expect src tok ts = .ok rest) : AllLexed rest := by
  unfold expect at h
  split at h
  · split at h
    · cases h
      exact hts.tail
    · cases h
  · cases h

theorem readPointer_yields :
    Yields (readPointer src rd) fun ps? => ∀ ps, ps? = some ps → ∀ a ∈ ps, p a := by
  intro ts ps? rest hts h
  unfold readPointer at h
  split at h
  · next us =>
    obtain ⟨us, hclose, h⟩ := Error.bind_eq_ok h
    obtain ⟨vs, hopen, h⟩ := Error.bind_eq_ok h
    have hus := lexed_expect (lexed_skipIdent hts.tail.tail) hclose
    have hvs := lexed_expect hus hopen
    split at h
    · cases h
      exact ⟨by simp, hvs.tail⟩
    · obtain ⟨⟨ps, ws⟩, hps, h⟩ := Error.bind_eq_ok h
      obtain ⟨hall, hws⟩ := (readParams_eq_ok_iff.mp hps).1.yields hrd lexed_skipIdent hvs
      cases h
      exact ⟨by simpa using hall, hws⟩
  · cases h
    exact ⟨by simp, hts⟩

end

theorem lexed_readCv {c v c' v' : Bool} {ts rest : List Token} (hts : AllLexed ts)
    (h : readCv c v ts = ((c', v'), rest)) : AllLexed rest := by
  induction ts generalizing c v with
  | nil =>
    cases h
    exact hts
  | cons t ts ih =>
    have htail := hts.tail
    unfold readCv at h
    split at h
    · next heq =>
      cases heq
      exact ih htail h
    · next heq =>
      cases heq
      exact ih htail h
    · cases h
      exact hts

theorem lexed_skipElaborated {ts : List Token} (hts : AllLexed ts) :
    AllLexed (skipElaborated ts) := by
  unfold skipElaborated
  split
  · split
    · exact hts.tail
    · exact hts
  · exact hts

theorem lexed_readDeclarators {n n' : Nat} {r r' : RefKind} {b : Bool} {ts rest : List Token}
    (hts : AllLexed ts) (h : readDeclarators n r b ts = ((n', r'), rest)) :
    AllLexed rest := by
  induction ts generalizing n r b with
  | nil =>
    cases h
    exact hts
  | cons t ts ih =>
    have htail := hts.tail
    unfold readDeclarators at h
    split at h
    · next heq =>
      cases heq
      exact ih htail h
    · next heq =>
      cases heq
      exact ih htail h
    · next heq =>
      cases heq
      exact ih htail h
    · next heq =>
      cases heq
      split at h
      · exact ih htail h
      · cases h
        exact hts
    · cases h
      exact hts

theorem readDimensions_yields {src : String} (inside : Option String) :
    Yields (readDimensions src inside) fun _ => True := by
  intro ts dims rest hts h
  induction ts generalizing inside dims rest with
  | nil =>
    cases inside with
    | none =>
      cases h
      exact ⟨trivial, hts⟩
    | some d => cases h
  | cons t ts ih =>
    have htail := hts.tail
    unfold readDimensions at h
    split at h
    · next heq =>
      cases heq
      exact ih _ _ _ htail h
    · cases h
      exact ⟨trivial, hts⟩
    · next heq =>
      cases heq
      obtain ⟨⟨ds, vs⟩, hnext, h⟩ := Error.bind_eq_ok h
      cases h
      exact ih _ _ _ htail hnext
    · next heq =>
      cases heq
      exact ih _ _ _ htail h
    · next heq => cases heq

/-! ### Every type that was read is printed as units -/

theorem exists_spellsList {sp : TypeExpr → List Token → Prop} (close : Token) {ts : List TypeExpr}
    (hne : ts ≠ []) (h : ∀ t ∈ ts, ∃ us, sp t us) : ∃ us, SpellsList sp close ts us := by
  induction ts with
  | nil => exact absurd rfl hne
  | cons t ts ih =>
    obtain ⟨us, hus⟩ := h t List.mem_cons_self
    cases ts with
    | nil => exact ⟨_, .last hus⟩
    | cons t' ts =>
      obtain ⟨vs, hvs⟩ := ih (by simp) fun u hu => h u (List.mem_cons_of_mem t hu)
      exact ⟨_, .more hus hvs⟩

theorem exists_spellsArgs {sp : TypeExpr → List Token → Prop} {args : List TypeExpr}
    (h : ∀ t ∈ args, ∃ us, sp t us) : ∃ us, SpellsArgs sp args us := by
  by_cases hne : args = []
  · rw [hne]
    exact ⟨[], .absent⟩
  · obtain ⟨us, hus⟩ := exists_spellsList .greater hne h
    exact ⟨_, .bracketed hus⟩

theorem exists_spellsParams {sp : TypeExpr → List Token → Prop} {ps : List TypeExpr}
    (h : ∀ t ∈ ps, ∃ us, sp t us) : ∃ us, SpellsParams sp ps us := by
  by_cases hne : ps = []
  · rw [hne]
    exact ⟨_, .empty⟩
  · obtain ⟨us, hus⟩ := exists_spellsList .rightParen hne h
    exact ⟨_, .listed hus⟩

theorem exists_spellsDim {d : String} (h : isPlainDim d = true) : ∃ us, SpellsDim d us := by
  unfold isPlainDim at h
  simp only [Bool.or_eq_true, beq_iff_eq] at h
  rcases h with (rfl | h) | h
  · exact ⟨_, .unbound⟩
  · exact ⟨_, .word (allLexed_of_scan h).head⟩
  · exact ⟨_, .numeral (allLexed_of_scan h).head⟩

theorem exists_spellsDims {dims : List String} (h : ∀ d ∈ dims, isPlainDim d = true) :
    ∃ us, SpellsDims dims us := by
  induction dims with
  | nil => exact ⟨_, .nil⟩
  | cons d ds ih =>
    obtain ⟨us, hus⟩ := exists_spellsDim (h d List.mem_cons_self)
    obtain ⟨vs, hvs⟩ := ih fun e he => h e (List.mem_cons_of_mem d he)
    exact ⟨_, .cons hus hvs⟩

theorem readType_yields (src : String) (budget : Nat) :
    Yields (readType src budget) fun t =>
      t.allParts hasPlainDims = true → ∃ us, Prints budget t us := by
  induction budget with
  | zero => exact fun ts t rest _ h => by cases h
  | succ budget ih =>
    intro ts t rest hts h
    obtain ⟨c, v, ts₁, ts₂, ts₃, ts₄, ts₅, hcv, hname, hcv', hdecl, hparams, hdims⟩ :=
      parts_of_readType h
    obtain ⟨⟨hshape, hargs⟩, h₂⟩ :=
      readName_yields ih _ _ _ (lexed_skipElaborated (lexed_readCv hts hcv)) hname
    have h₄ := lexed_readDeclarators (lexed_readCv h₂ hcv') hdecl
    obtain ⟨hps, h₅⟩ := readPointer_yields ih _ _ _ h₄ hparams
    obtain ⟨-, h₆⟩ := readDimensions_yields none _ _ _ h₅ hdims
    obtain ⟨name, isConst, isVolatile, pointers, ref, dims, args, params?⟩ := t
    refine ⟨fun hall => ?_, h₆⟩
    obtain ⟨hthis, hallArgs, hallParams⟩ := allParts_iff.mp hall
    obtain ⟨dimUnits, hdimUnits⟩ := exists_spellsDims (List.all_eq_true.mp hthis)
    obtain ⟨argUnits, hargUnits⟩ := exists_spellsArgs fun a ha => hargs a ha (hallArgs a ha)
    have hnameUnits : ∃ us, PrintsName (Prints budget) name args us := by
      rcases hshape with heq | ⟨d, hd, heq⟩ | ⟨us, hus⟩
      · cases heq
        exact ⟨_, .ellipsis⟩
      · cases heq
        exact ⟨_, .numeral hd⟩
      · exact ⟨_, .qualified hus hargUnits⟩
    have hpointerUnits : ∃ us, PrintsPointer (Prints budget) params? us := by
      cases params? with
      | none => exact ⟨_, .absent⟩
      | some ps =>
        obtain ⟨us, hus⟩ := exists_spellsParams fun a ha => hps ps rfl a ha (hallParams a ha)
        exact ⟨_, .present hus⟩
    obtain ⟨nameUnits, hnameUnits⟩ := hnameUnits
    obtain ⟨pointerUnits, hpointerUnits⟩ := hpointerUnits
    exact ⟨_, .parts _ _ _ _ hnameUnits hpointerUnits hdimUnits⟩

theorem Prints.spells {budget : Nat} {t : TypeExpr} {us : List Token} (h : Prints budget t us)
    (ht : t.allParts isRereadable = true) : Spells budget t us := by
  induction budget generalizing t us with
  | zero => cases h
  | succ budget ih =>
    obtain ⟨hthis, hargs, hps⟩ := allParts_iff.mp ht
    replace hargs : ∀ a ∈ t.args, ∀ us, Prints budget a us → Spells budget a us :=
      fun a ha us h => ih h (hargs a ha)
    replace hps : ∀ a ∈ t.params, ∀ us, Prints budget a us → Spells budget a us :=
      fun a ha us h => ih h (hps a ha)
    cases h with
    | @parts name dims args params? us vs ws c v p r hname hparams hdims =>
      obtain ⟨hpointer, -, hfree⟩ := isRereadable_iff.mp hthis
      have hname' : SpellsName (Spells budget) name args us := by
        cases hname with
        | ellipsis => exact .ellipsis
        | numeral hd => exact .numeral hd
        | qualified hname hargs' =>
          refine .qualified hname (fun w hw => ?_) (hargs'.mono hargs)
          unfold hasPlainName at hfree
          rw [Option.all_eq_true] at hfree
          simpa using hfree w hw
      cases hparams with
      | absent => exact .object c v p r hname' hdims
      | present h =>
        obtain ⟨rfl, rfl⟩ : p = 0 ∧ r = .none := hpointer rfl
        exact .function c v hname' (h.mono hps) hdims

/-! ### The round trip -/

theorem exists_prints {s : String} {t : TypeExpr} (h : parse s = .ok t)
    (ht : t.allParts hasPlainDims = true) :
    ∃ us, Prints (nestingLimit - 1) t us ∧ scan t.text.toList = some us := by
  obtain ⟨ts, hscan, hread⟩ := parse_eq_ok h
  obtain ⟨us, hus⟩ := (readType_yields s _ _ _ _ (allLexed_of_scan hscan) hread).1 ht
  have hagain := hus.scan [] [] .nil (by simp [scan])
  rw [List.append_nil, List.append_nil] at hagain
  exact ⟨us, hus, hagain⟩

theorem parse_text_of_allParts {p : TypeExpr → Bool}
    (hp : ∀ t, p t = true → t.isRereadable = true) {s : String} {t : TypeExpr}
    (h : parse s = .ok t) (ht : t.allParts p = true) : parse t.text = .ok t := by
  replace ht := allParts_mono hp ht
  obtain ⟨us, hus, hscan⟩ := exists_prints h (allParts_mono (fun _ hu => (isRereadable_iff.mp hu).2.1) ht)
  have hback := (hus.spells ht).read t.text [] .nil
  rw [List.append_nil] at hback
  unfold parse
  rw [tokens_of_scan hscan]
  show (readType t.text (nestingLimit - 1) us >>= _) = _
  rw [hback]
  rfl

/-- The spelling of a type that was read of a text is read as the same type: qualified names and
builtin words, template arguments, qualifiers, indirections, references and dimensions are kept. -/
theorem parse_text {s : String} {t : TypeExpr} (h : parse s = .ok t)
    (ht : t.allParts isPlain = true) : parse t.text = .ok t := by
  refine parse_text_of_allParts (fun u hu => ?_) h ht
  unfold isPlain at hu
  unfold isRereadable
  simp only [Bool.and_eq_true, Bool.or_eq_true] at hu ⊢
  exact ⟨⟨.inl hu.1.1, hu.1.2⟩, hu.2⟩

theorem parse_text_map :
    ∃ t : TypeExpr, parse "ns :: Map< long unsigned , T const* >&&[4]" = .ok t ∧
      t.allParts isPlain = true ∧ t.text = "ns::Map<long unsigned, const T*>&&[4]" ∧
      parse t.text = .ok t := by
  let t : TypeExpr := {
    name := ["ns", "Map"]
    ref := .rvalue
    dims := ["4"]
    args := [{ name := ["long unsigned"] }, { name := ["T"], isConst := true, pointers := 1 }] }
  have h : parse "ns :: Map< long unsigned , T const* >&&[4]" = .ok t := by cbv
  have ht : t.allParts isPlain = true := by cbv
  exact ⟨t, h, ht, by cbv, parse_text h ht⟩

end BindingModel.TypeExpr
