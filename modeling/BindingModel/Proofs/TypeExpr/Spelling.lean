import BindingModel.Proofs.TypeExpr.Lexing
import BindingModel.TypeExpr.Reader

/-! The units that a canonical spelling consists of, and which of them are read as what was spelled.
Scanning the spelling of a type gives its units. -/
namespace BindingModel.TypeExpr
open Token

/-- The words that a segment of a name is made of. -/
inductive SpellsSegment : String → List String → Prop
  | word {w : String} (hw : IsWord w) : SpellsSegment w [w]
  | fold {w u s : String} {us : List String} (hw : IsWord w) (hb : w ∈ builtinWords)
      (hu : u ∈ builtinWords) (h : SpellsSegment s (u :: us)) :
      SpellsSegment (w ++ " " ++ s) (w :: u :: us)

/-- The units of a qualified name. -/
inductive SpellsSegments : List String → List Token → Prop
  | last {seg : String} {ws : List String} (h : SpellsSegment seg ws) :
      SpellsSegments [seg] (ws.map .ident)
  | scope {seg : String} {segs ws : List String} {us : List Token} (h : SpellsSegment seg ws)
      (hs : SpellsSegments segs us) : SpellsSegments (seg :: segs) (ws.map .ident ++ .scope :: us)

/-- The units of an array dimension. -/
inductive SpellsDim : String → List Token → Prop
  | unbound : SpellsDim "" []
  | word {w : String} (hw : IsWord w) : SpellsDim w [.ident w]
  | numeral {d : String} (hd : IsNumeral d) : SpellsDim d [.number d]

inductive SpellsDims : List String → List Token → Prop
  | nil : SpellsDims [] []
  | cons {d : String} {ds : List String} {us vs : List Token} (h : SpellsDim d us)
      (hs : SpellsDims ds vs) :
      SpellsDims (d :: ds) (.leftBracket :: us ++ .rightBracket :: vs)

/-- Words that are passed over, or taken for qualifiers, where a name is expected. -/
def keywords : List String := "const" :: "volatile" :: elaboratedKeywords

def cvUnits (isConst isVolatile : Bool) : List Token :=
  (if isConst then [.ident "const"] else []) ++ if isVolatile then [.ident "volatile"] else []

def refUnits : RefKind → List Token
  | .none => []
  | .lvalue => [.amp]
  | .rvalue => [.ampAmp]

section
variable (sp : TypeExpr → List Token → Prop)

/-- The units of some types up to the closing bracket. -/
inductive SpellsList (close : Token) : List TypeExpr → List Token → Prop
  | last {t : TypeExpr} {us : List Token} (h : sp t us) : SpellsList close [t] (us ++ [close])
  | more {t : TypeExpr} {ts : List TypeExpr} {us vs : List Token} (h : sp t us)
      (hs : SpellsList close ts vs) : SpellsList close (t :: ts) (us ++ .comma :: vs)

/-- The units of template arguments with their brackets. -/
inductive SpellsArgs : List TypeExpr → List Token → Prop
  | absent : SpellsArgs [] []
  | bracketed {args : List TypeExpr} {us : List Token} (h : SpellsList sp .greater args us) :
      SpellsArgs args (.less :: us)

/-- The units that follow `(*)(`. -/
inductive SpellsParams : List TypeExpr → List Token → Prop
  | empty : SpellsParams [] [.rightParen]
  | listed {ps : List TypeExpr} {us : List Token} (h : SpellsList sp .rightParen ps us) :
      SpellsParams ps us

/-- The units of a name with its template arguments. -/
inductive SpellsName : List String → List TypeExpr → List Token → Prop
  | ellipsis : SpellsName ["..."] [] [.ellipsis]
  | numeral {d : String} (hd : IsNumeral d) : SpellsName [d] [] [.number d]
  | qualified {name : List String} {args : List TypeExpr} {us vs : List Token}
      (hname : SpellsSegments name us) (hfree : ∀ w ∈ name.head?, w ∉ keywords)
      (hargs : SpellsArgs sp args vs) : SpellsName name args (us ++ vs)

/-- The units of a type whose parts are spelled as `sp` says. A function pointer has neither
indirections nor a reference: these would stand behind it but be read before it. -/
inductive SpellsType : TypeExpr → List Token → Prop
  | object {name : List String} {args : List TypeExpr} {us vs : List Token} {dims : List String}
      (c v : Bool) (p : Nat) (r : RefKind) (hname : SpellsName sp name args us)
      (hdims : SpellsDims dims vs) :
      SpellsType ⟨name, c, v, p, r, dims, args, none⟩
        (cvUnits c v ++ (us ++ (List.replicate p .star ++ (refUnits r ++ vs))))
  | function {name : List String} {args ps : List TypeExpr} {us vs ws : List Token}
      {dims : List String} (c v : Bool) (hname : SpellsName sp name args us)
      (hps : SpellsParams sp ps ws) (hdims : SpellsDims dims vs) :
      SpellsType ⟨name, c, v, 0, .none, dims, args, some ps⟩
        (cvUnits c v ++ (us ++
          (.leftParen :: .star :: .rightParen :: .leftParen :: ws ++ vs)))

/-- The units that a name with its template arguments is printed as. -/
inductive PrintsName : List String → List TypeExpr → List Token → Prop
  | ellipsis : PrintsName ["..."] [] [.ellipsis]
  | numeral {d : String} (hd : IsNumeral d) : PrintsName [d] [] [.number d]
  | qualified {name : List String} {args : List TypeExpr} {us vs : List Token}
      (hname : SpellsSegments name us) (hargs : SpellsArgs sp args vs) :
      PrintsName name args (us ++ vs)

/-- The units that the parameters of a function pointer are printed as. -/
inductive PrintsPointer : Option (List TypeExpr) → List Token → Prop
  | absent : PrintsPointer none []
  | present {ps : List TypeExpr} {us : List Token} (h : SpellsParams sp ps us) :
      PrintsPointer (some ps) (.leftParen :: .star :: .rightParen :: .leftParen :: us)

/-- The units that a type is printed as. They need not be read as that type. -/
inductive PrintsType : TypeExpr → List Token → Prop
  | parts {name dims : List String} {args : List TypeExpr} {params? : Option (List TypeExpr)}
      {us vs ws : List Token} (c v : Bool) (p : Nat) (r : RefKind)
      (hname : PrintsName sp name args us) (hparams : PrintsPointer sp params? ws)
      (hdims : SpellsDims dims vs) :
      PrintsType ⟨name, c, v, p, r, dims, args, params?⟩
        (cvUnits c v ++ (us ++ (ws ++ (List.replicate p .star ++ (refUnits r ++ vs)))))

end

/-- The units spell a type that is nested less deep than the budget. -/
def Spells : (budget : Nat) → TypeExpr → List Token → Prop
  | 0 => fun _ _ => False
  | budget + 1 => SpellsType (Spells budget)

/-- The units are those of a printed type that is nested less deep than the budget. -/
def Prints : (budget : Nat) → TypeExpr → List Token → Prop
  | 0 => fun _ _ => False
  | budget + 1 => PrintsType (Prints budget)

section
variable {sp sp' : TypeExpr → List Token → Prop}

theorem SpellsList.mono {close : Token} {ts : List TypeExpr} {us : List Token}
    (h : SpellsList sp close ts us) (hsp : ∀ t ∈ ts, ∀ us, sp t us → sp' t us) :
    SpellsList sp' close ts us := by
  induction h with
  | last h => exact .last (hsp _ List.mem_cons_self _ h)
  | more h _ ih =>
    exact .more (hsp _ List.mem_cons_self _ h) (ih fun t ht => hsp t (List.mem_cons_of_mem _ ht))

theorem SpellsArgs.mono {args : List TypeExpr} {us : List Token} (h : SpellsArgs sp args us)
    (hsp : ∀ t ∈ args, ∀ us, sp t us → sp' t us) : SpellsArgs sp' args us := by
  cases h with
  | absent => exact .absent
  | bracketed h => exact .bracketed (h.mono hsp)

theorem SpellsParams.mono {ps : List TypeExpr} {us : List Token} (h : SpellsParams sp ps us)
    (hsp : ∀ t ∈ ps, ∀ us, sp t us → sp' t us) : SpellsParams sp' ps us := by
  cases h with
  | empty => exact .empty
  | listed h => exact .listed (h.mono hsp)

end

/-! ### Scanning -/

/-- What may follow a type in a spelling. -/
def IsCloser (c : Char) : Prop := c = ',' ∨ c = '>' ∨ c = ')'

theorem IsCloser.isEnd {c : Char} (h : IsCloser c) : IsEnd c ∧ c ≠ '&' := by
  rcases h with rfl | rfl | rfl <;> decide

/-- The text is scanned as the units, before anything that may follow a type. -/
def ScannedAs (s : String) (us : List Token) : Prop :=
  ∀ rest vs, Starts IsCloser rest → scan rest = some vs →
    scan (s.toList ++ rest) = some (us ++ vs)

theorem SpellsSegment.scan {seg : String} {ws : List String} (h : SpellsSegment seg ws)
    {rest : List Char} {vs : List Token} (hrest : Starts IsEnd rest)
    (hvs : Token.scan rest = some vs) :
    Token.scan (seg.toList ++ rest) = some (ws.map .ident ++ vs) := by
  induction h with
  | word hw => exact scan_word hvs hw hrest
  | @fold w u s us hw _ _ _ ih =>
    have hspace := scan_word (scan_space ih) hw (.cons (by decide) _)
    simpa using hspace

theorem SpellsSegments.scan {name : List String} {us : List Token} (h : SpellsSegments name us)
    {rest : List Char} {vs : List Token} (hrest : Starts IsEnd rest)
    (hvs : Token.scan rest = some vs) :
    Token.scan ((Text.qualified name).toList ++ rest) = some (us ++ vs) := by
  induction h with
  | last h => exact h.scan hrest hvs
  | @scope seg segs ws us h hs ih =>
    have hseg := h.scan (.cons (by decide) _) (scan_scope ih)
    have htext : Text.qualified (seg :: segs) = seg ++ "::" ++ Text.qualified segs := by
      cases hs <;> rfl
    rw [htext]
    simpa using hseg

theorem SpellsDims.scan {dims : List String} {us : List Token} (h : SpellsDims dims us)
    {rest : List Char} {vs : List Token} (hvs : Token.scan rest = some vs) :
    Token.scan ((dimsText dims).toList ++ rest) = some (us ++ vs) := by
  induction h with
  | nil => simpa [dimsText] using hvs
  | @cons d ds us' vs' h hs ih =>
    have hclose := scan_mark ih (c := ']') (by decide)
    have hdim : Token.scan (d.toList ++ (']' :: ((dimsText ds).toList ++ rest))) =
        some (us' ++ (.rightBracket :: (vs' ++ vs))) := by
      cases h with
      | unbound => exact hclose
      | word hw => exact scan_word hclose hw (.cons (by decide) _)
      | numeral hd => exact scan_numeral hclose hd (.cons (by decide) _)
    have hopen := scan_mark hdim (c := '[') (by decide)
    have htext : (dimsText (d :: ds)).toList ++ rest =
        '[' :: (d.toList ++ (']' :: ((dimsText ds).toList ++ rest))) := by
      simp [dimsText]
    rw [htext, hopen]
    simp [ofChar]

theorem scan_stars (p : Nat) {rest : List Char} {vs : List Token}
    (hvs : Token.scan rest = some vs) :
    Token.scan ((stars p).toList ++ rest) = some (List.replicate p .star ++ vs) := by
  unfold stars
  rw [String.toList_ofList]
  induction p with
  | zero => exact hvs
  | succ p ih => exact scan_mark ih (by decide)

theorem scan_ref (r : RefKind) {rest : List Char} {vs : List Token}
    (hrest : Starts (· ≠ '&') rest) (hvs : Token.scan rest = some vs) :
    Token.scan (r.text.toList ++ rest) = some (refUnits r ++ vs) := by
  cases r with
  | none => exact hvs
  | lvalue => exact scan_amp hvs hrest
  | rvalue => exact scan_ampAmp hvs

theorem scan_cv (c v : Bool) {rest : List Char} {vs : List Token}
    (hvs : Token.scan rest = some vs) :
    Token.scan ((cvText c v).toList ++ rest) = some (cvUnits c v ++ vs) := by
  have hword : ∀ {w : String} {rest vs}, IsWord w → Token.scan rest = some vs →
      Token.scan (w.toList ++ ' ' :: rest) = some (.ident w :: vs) :=
    fun hw h => scan_word (scan_space h) hw (.cons (by decide) _)
  have hconst : IsWord "const" :=
    ⟨'c', "onst".toList, rfl, by decide, by decide, List.all_eq_true.mp (by decide)⟩
  have hvolatile : IsWord "volatile" :=
    ⟨'v', "olatile".toList, rfl, by decide, by decide, List.all_eq_true.mp (by decide)⟩
  unfold cvText cvUnits
  cases c <;> cases v
  · simpa using hvs
  · simpa using hword hvolatile hvs
  · simpa using hword hconst hvs
  · simpa using hword hconst (hword hvolatile hvs)

section
variable {sp : TypeExpr → List Token → Prop} (hsp : ∀ t us, sp t us → ScannedAs t.text us)
include hsp

theorem SpellsList.scan {close : Token} {ts : List TypeExpr} {us : List Token}
    (h : SpellsList sp close ts us) (mark : Char) (hclose : close = ofChar mark)
    (hmark : mark = '>' ∨ mark = ')') {rest : List Char} {vs : List Token}
    (hvs : Token.scan rest = some vs) :
    ∃ t tail, ts = t :: tail ∧
      Token.scan ((t.text ++ restText tail).toList ++ mark :: rest) = some (us ++ vs) := by
  have hend : Token.scan (mark :: rest) = some (close :: vs) := by
    rw [hclose]
    rcases hmark with rfl | rfl <;> exact scan_mark hvs (by decide)
  have hcloser : IsCloser mark := .inr hmark
  induction h with
  | @last t us h =>
    refine ⟨t, [], rfl, ?_⟩
    have ht := hsp t us h _ _ (.cons hcloser _) hend
    simpa [restText] using ht
  | @more t ts us ws h _ ih =>
    obtain ⟨u, tail, rfl, hu⟩ := ih
    refine ⟨t, u :: tail, rfl, ?_⟩
    have hcomma := scan_mark (scan_space hu) (c := ',') (by decide)
    have ht := hsp t us h _ _ (.cons (.inl rfl) _) hcomma
    simpa [restText, ofChar] using ht

theorem SpellsArgs.scan {args : List TypeExpr} {us : List Token} (h : SpellsArgs sp args us)
    {rest : List Char} {vs : List Token} (hvs : Token.scan rest = some vs) :
    Token.scan ((argsText args).toList ++ rest) = some (us ++ vs) := by
  cases h with
  | absent => simpa [argsText] using hvs
  | bracketed h =>
    obtain ⟨t, tail, rfl, ht⟩ := h.scan hsp '>' rfl (.inl rfl) hvs
    have hopen := scan_mark ht (c := '<') (by decide)
    simpa [argsText, ofChar] using hopen

theorem SpellsParams.scan {ps : List TypeExpr} {us : List Token} (h : SpellsParams sp ps us)
    {rest : List Char} {vs : List Token} (hvs : Token.scan rest = some vs) :
    Token.scan ((paramsText (some ps)).toList ++ rest) =
      some (.leftParen :: .star :: .rightParen :: .leftParen :: us ++ vs) := by
  have hstart : ∀ {rest vs}, Token.scan rest = some vs →
      Token.scan (" (*)(".toList ++ rest) =
        some (.leftParen :: .star :: .rightParen :: .leftParen :: vs) := by
    intro rest vs h
    have hparen := scan_mark (scan_mark h (c := '(') (by decide)) (c := ')') (by decide)
    have hstar := scan_mark (scan_mark hparen (c := '*') (by decide)) (c := '(') (by decide)
    exact scan_space hstar
  cases h with
  | empty => exact hstart (scan_mark hvs (c := ')') (by decide))
  | listed h =>
    obtain ⟨t, tail, rfl, ht⟩ := h.scan hsp ')' rfl (.inr rfl) hvs
    simpa [paramsText] using hstart ht

theorem PrintsPointer.scan {params? : Option (List TypeExpr)} {us : List Token}
    (h : PrintsPointer sp params? us) {rest : List Char} {vs : List Token}
    (hvs : Token.scan rest = some vs) :
    Token.scan ((paramsText params?).toList ++ rest) = some (us ++ vs) := by
  cases h with
  | absent => simpa [paramsText] using hvs
  | present h => exact h.scan hsp hvs

theorem PrintsName.scan {name : List String} {args : List TypeExpr} {us : List Token}
    (h : PrintsName sp name args us) {rest : List Char} {vs : List Token}
    (hrest : Starts IsEnd rest) (hvs : Token.scan rest = some vs) :
    Token.scan ((Text.qualified name ++ argsText args).toList ++ rest) = some (us ++ vs) := by
  cases h with
  | ellipsis => exact scan_ellipsis hvs
  | @numeral d hd => simpa [Text.qualified, Text.joinWith, argsText] using scan_numeral hvs hd hrest
  | @qualified name args us ws hname hargs =>
    have hstart : Starts IsEnd ((argsText args).toList ++ rest) := by
      cases args with
      | nil => simpa [argsText] using hrest
      | cons t ts =>
        rw [argsText]
        simpa using Starts.cons (by decide) _
    simpa using hname.scan hstart (hargs.scan hsp hvs)

theorem PrintsType.scan {t : TypeExpr} {us : List Token} (h : PrintsType sp t us) :
    ScannedAs t.text us := by
  intro rest ws hrest hws
  have hends : Starts IsEnd rest := hrest.mono fun _ hc => hc.isEnd.1
  have hopen : ∀ {p : Char → Prop} (dims : List String), p '[' →
      Starts p (dimsText dims).toList := by
    intro p dims hp
    cases dims with
    | nil => exact .nil
    | cons d ds =>
      simpa [dimsText] using Starts.cons hp (d.toList ++ ']' :: (dimsText ds).toList)
  have hparen : ∀ params?, Starts IsEnd (paramsText params?).toList := by
    intro params?
    rcases params? with - | - | ⟨p, ps⟩
    · exact .nil
    · exact .cons (by decide) _
    · rw [paramsText]
      simpa using Starts.cons (by decide) _
  have hstars : ∀ p, Starts IsEnd (stars p).toList := by
    intro p
    cases p with
    | zero => exact .nil
    | succ p =>
      unfold stars
      rw [String.toList_ofList]
      exact .cons (by decide) _
  have href : ∀ r : RefKind, Starts IsEnd r.text.toList := by
    intro r
    cases r with
    | none => exact .nil
    | lvalue => exact .cons (by decide) _
    | rvalue => exact .cons (by decide) _
  cases h with
  | @parts name dims args params? us vs ws' c v p r hname hparams hdims =>
    have hafter : Starts (· ≠ '&') ((dimsText dims).toList ++ rest) :=
      (hopen dims (by decide)).append (hrest.mono fun _ hc => hc.isEnd.2)
    have hnext : Starts IsEnd ((paramsText params?).toList ++ ((stars p).toList ++
        (r.text.toList ++ ((dimsText dims).toList ++ rest)))) :=
      (hparen params?).append
        ((hstars p).append ((href r).append ((hopen dims (by decide)).append hends)))
    have hdecl := scan_stars p (scan_ref r hafter (hdims.scan hws))
    have hall := scan_cv c v (hname.scan hsp hnext (hparams.scan hsp hdecl))
    rw [text]
    simpa using hall

end

/-- Before anything that may follow a type, its spelling is scanned as its units. -/
theorem Prints.scan {budget : Nat} {t : TypeExpr} {us : List Token} (h : Prints budget t us) :
    ScannedAs t.text us := by
  induction budget generalizing t us with
  | zero => cases h
  | succ budget ih => exact PrintsType.scan (fun _ _ => ih) h

end BindingModel.TypeExpr
