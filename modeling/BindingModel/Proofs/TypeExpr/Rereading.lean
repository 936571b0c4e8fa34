import BindingModel.Proofs.Error
import BindingModel.Proofs.TypeExpr.Readings
import BindingModel.Proofs.TypeExpr.Spelling

/-! Reading the units that a canonical spelling consists of gives the type that was spelled. -/
namespace BindingModel.TypeExpr
open Token

/-- What may follow a type among units. -/
def IsCloserUnit (u : Token) : Prop := u = .comma ∨ u = .greater ∨ u = .rightParen

/-- What may follow a name with its template arguments: neither continues it. -/
def EndsName (u : Token) : Prop := u ≠ .less ∧ u ≠ .scope ∧ ∀ w, u ≠ .ident w

/-- The first unit of a type. -/
def OpensType (u : Token) : Prop := u ≠ .greater ∧ u ≠ .rightParen

theorem IsCloserUnit.endsName {u : Token} (h : IsCloserUnit u) : EndsName u := by
  rcases h with rfl | rfl | rfl <;> exact ⟨by decide, by decide, fun _ => by simp⟩

/-- Reading units that spell a type gives that type, before anything that may follow one. -/
def ReadAs (rd : Reader TypeExpr) (t : TypeExpr) (us : List Token) : Prop :=
  ∀ more, Starts IsCloserUnit more → rd (us ++ more) = .ok (t, more)

/-! ### Qualifiers, declarators and dimensions -/

theorem readCv_of_starts {c v : Bool} {ts : List Token}
    (h : Starts (fun u => ∀ w ∈ keywords, u ≠ .ident w) ts) : readCv c v ts = ((c, v), ts) := by
  unfold readCv
  split
  · exact absurd rfl (h (.ident "const") rfl "const" (by decide))
  · exact absurd rfl (h (.ident "volatile") rfl "volatile" (by decide))
  · rfl

theorem readCv_cvUnits {ts : List Token}
    (h : Starts (fun u => ∀ w ∈ keywords, u ≠ .ident w) ts) (c v : Bool) :
    readCv false false (cvUnits c v ++ ts) = ((c, v), ts) := by
  cases c <;> cases v <;> exact readCv_of_starts h

theorem skipElaborated_of_starts {ts : List Token}
    (h : Starts (fun u => ∀ w ∈ keywords, u ≠ .ident w) ts) : skipElaborated ts = ts := by
  unfold skipElaborated
  split
  · next w ts =>
    rw [if_neg]
    intro hw
    exact h (.ident w) rfl w (by simp [keywords, hw]) rfl
  · rfl

/-- What may follow the indirections and the reference of a type. -/
def EndsDeclarators (u : Token) : Prop := u ≠ .star ∧ u ≠ .amp ∧ u ≠ .ampAmp ∧ ∀ w, u ≠ .ident w

theorem IsCloserUnit.endsDeclarators {u : Token} (h : IsCloserUnit u) : EndsDeclarators u := by
  rcases h with rfl | rfl | rfl <;> exact ⟨by decide, by decide, by decide, fun _ => by simp⟩

theorem readDeclarators_of_starts {n : Nat} {r : RefKind} {afterStar : Bool} {ts : List Token}
    (h : Starts EndsDeclarators ts) : readDeclarators n r afterStar ts = ((n, r), ts) := by
  unfold readDeclarators
  split
  · exact absurd rfl (h .star rfl).1
  · exact absurd rfl (h .amp rfl).2.1
  · exact absurd rfl (h .ampAmp rfl).2.2.1
  · next w ts => exact absurd rfl ((h (.ident w) rfl).2.2.2 w)
  · rfl

theorem readDeclarators_units {ts : List Token} (h : Starts EndsDeclarators ts) (r : RefKind)
    (p n : Nat) (afterStar : Bool) :
    readDeclarators n .none afterStar (List.replicate p .star ++ (refUnits r ++ ts)) =
      ((n + p, r), ts) := by
  induction p generalizing n afterStar with
  | zero => cases r <;> exact readDeclarators_of_starts h
  | succ p ih =>
    rw [List.replicate_succ, List.cons_append, readDeclarators, ih, Nat.add_right_comm,
      Nat.add_assoc]

theorem SpellsDims.read {src : String} {dims : List String} {us : List Token}
    (h : SpellsDims dims us) {more : List Token} (hmore : Starts (· ≠ .leftBracket) more) :
    readDimensions src none (us ++ more) = .ok (dims, more) := by
  induction h with
  | nil =>
    rw [List.nil_append]
    unfold readDimensions
    split
    · exact absurd rfl (hmore .leftBracket rfl)
    · rfl
    · next heq => cases heq
    · next heq => cases heq
    · next heq => cases heq
  | @cons d ds us vs h _ ih =>
    have hclose : readDimensions src (some d) (.rightBracket :: (vs ++ more)) =
        .ok (d :: ds, more) := by
      rw [readDimensions, ih]
      rfl
    cases h with
    | unbound => exact hclose
    | word hw =>
      have hdim : extendDimension "" (.ident d) = d := by simp [extendDimension, Token.text]
      simpa [readDimensions, hdim] using hclose
    | numeral hd =>
      have hdim : extendDimension "" (.number d) = d := by simp [extendDimension, Token.text]
      simpa [readDimensions, hdim] using hclose

theorem readPointer_of_starts {src : String} {rd : Reader TypeExpr} {ts : List Token}
    (h : Starts (· ≠ .leftParen) ts) : readPointer src rd ts = .ok (none, ts) := by
  unfold readPointer
  split
  · exact absurd rfl (h .leftParen rfl)
  · rfl

/-- The parts of a type are read one after another. -/
theorem readType_of_parts {src : String} {budget : Nat} {ts ts₁ ts₂ ts₃ ts₄ more : List Token}
    {c v : Bool} {name : List String} {args : List TypeExpr} {p : Nat} {r : RefKind}
    {params? : Option (List TypeExpr)} {dims : List String}
    (hcv : readCv false false ts = ((c, v), ts₁)) (hskip : skipElaborated ts₁ = ts₁)
    (hname : readName src (readType src budget) ts₁ = .ok ((name, args), ts₂))
    (hcv' : readCv c v ts₂ = ((c, v), ts₂))
    (hdecl : readDeclarators 0 .none false ts₂ = ((p, r), ts₃))
    (hparams : readPointer src (readType src budget) ts₃ = .ok (params?, ts₄))
    (hdims : readDimensions src none ts₄ = .ok (dims, more)) :
    readType src (budget + 1) ts = .ok (⟨name, c, v, p, r, dims, args, params?⟩, more) := by
  simp only [readType, hcv, hskip, hname, bind, Except.bind, hcv', hdecl, hparams, hdims]
  rfl

theorem parts_of_readType {src : String} {budget : Nat} {ts rest : List Token} {t : TypeExpr}
    (h : readType src (budget + 1) ts = .ok (t, rest)) :
    ∃ c v ts₁ ts₂ ts₃ ts₄ ts₅, readCv false false ts = ((c, v), ts₁) ∧
      readName src (readType src budget) (skipElaborated ts₁) = .ok ((t.name, t.args), ts₂) ∧
      readCv c v ts₂ = ((t.isConst, t.isVolatile), ts₃) ∧
      readDeclarators 0 .none false ts₃ = ((t.pointers, t.ref), ts₄) ∧
      readPointer src (readType src budget) ts₄ = .ok (t.params?, ts₅) ∧
      readDimensions src none ts₅ = .ok (t.dims, rest) := by
  rw [readType] at h
  obtain ⟨⟨⟨name, args⟩, ts₂⟩, hname, h⟩ := Error.bind_eq_ok h
  obtain ⟨⟨params?, ts₅⟩, hparams, h⟩ := Error.bind_eq_ok h
  obtain ⟨⟨dims, ts₆⟩, hdims, h⟩ := Error.bind_eq_ok h
  cases h
  exact ⟨_, _, _, _, _, _, _, rfl, hname, rfl, rfl, hparams, hdims⟩

/-! ### Names -/

theorem SpellsSegment.read {seg w : String} {ws : List String} (h : SpellsSegment seg (w :: ws))
    {more : List Token} (hmore : Starts (fun u => ∀ w, u ≠ .ident w) more) :
    readSegment w (ws.map .ident ++ more) = (seg, more) := by
  generalize hl : w :: ws = l at h
  induction h generalizing w ws with
  | @word w' hw =>
    cases hl
    unfold readSegment
    split
    · next u ts heq =>
      rw [List.map_nil, List.nil_append] at heq
      exact absurd rfl (hmore (.ident u) (by rw [heq]; rfl) u)
    · rfl
  | @fold w' u s us hw hb hu h ih =>
    cases hl
    simp only [List.map_cons, List.cons_append, readSegment]
    rw [if_pos ⟨hb, hu⟩, ih rfl]

theorem SpellsSegment.exists_cons {seg : String} {ws : List String} (h : SpellsSegment seg ws) :
    ∃ w us, ws = w :: us ∧ (w = seg ∧ us = [] ∨ w ∈ builtinWords) := by
  cases h with
  | word hw => exact ⟨_, [], rfl, .inl ⟨rfl, rfl⟩⟩
  | fold hw hb hu h => exact ⟨_, _, rfl, .inr hb⟩

theorem SpellsSegments.exists_cons {name : List String} {us : List Token}
    (h : SpellsSegments name us) : ∃ w ts, us = .ident w :: ts := by
  cases h with
  | last h =>
    obtain ⟨w, ws, rfl, -⟩ := h.exists_cons
    exact ⟨w, _, rfl⟩
  | scope h hs =>
    obtain ⟨w, ws, rfl, -⟩ := h.exists_cons
    exact ⟨w, _, rfl⟩

theorem SpellsDims.starts {q : Token → Prop} {dims : List String} {us more : List Token}
    (h : SpellsDims dims us) (hbracket : q .leftBracket) (hmore : Starts q more) :
    Starts q (us ++ more) := by
  cases h with
  | nil => exact hmore
  | cons h hs => exact .cons hbracket _

/-- What ends a type behind its name, or behind its parameters. -/
theorem SpellsDims.starts_declarators {q : Token → Prop} {dims : List String} {us more : List Token}
    (h : SpellsDims dims us) (hq : ∀ u ∈ [Token.star, .amp, .ampAmp, .leftBracket], q u)
    (hmore : Starts q more) (p : Nat) (r : RefKind) :
    Starts q (List.replicate p .star ++ (refUnits r ++ (us ++ more))) := by
  refine .append ?_ (.append ?_ (h.starts (hq _ (by simp)) hmore))
  · cases p with
    | zero => exact .nil
    | succ p => exact .cons (hq _ (by simp)) _
  · cases r with
    | none => exact .nil
    | lvalue => exact .cons (hq _ (by simp)) _
    | rvalue => exact .cons (hq _ (by simp)) _

theorem endsName_of_mem {u : Token} (hu : u ∈ [Token.star, .amp, .ampAmp, .leftBracket]) :
    EndsName u := by
  simp only [List.mem_cons, List.not_mem_nil, or_false] at hu
  rcases hu with rfl | rfl | rfl | rfl <;> exact ⟨by decide, by decide, fun _ => by simp⟩

section
variable {sp : TypeExpr → List Token → Prop} (src : String) {rd : Reader TypeExpr}
variable (hopens : ∀ t us, sp t us → Starts OpensType us ∧ us ≠ [])
variable (hread : ∀ t us, sp t us → ReadAs rd t us)

include hopens in
theorem SpellsList.opens {close : Token} {ts : List TypeExpr} {us : List Token}
    (h : SpellsList sp close ts us) : Starts OpensType us ∧ us ≠ [] := by
  cases h with
  | last h =>
    obtain ⟨hstart, hne⟩ := hopens _ _ h
    obtain ⟨u, us, rfl⟩ := List.exists_cons_of_ne_nil hne
    exact ⟨.cons (hstart u rfl) _, by simp⟩
  | more h hs =>
    obtain ⟨hstart, hne⟩ := hopens _ _ h
    obtain ⟨u, us, rfl⟩ := List.exists_cons_of_ne_nil hne
    exact ⟨.cons (hstart u rfl) _, by simp⟩

theorem SpellsList.length_le {close : Token} {ts : List TypeExpr} {us : List Token}
    (h : SpellsList sp close ts us) : ts.length ≤ us.length := by
  induction h with
  | last h => simp
  | more h _ ih =>
    simp only [List.length_append, List.length_cons]
    omega

theorem skipIdent_of_isCloserUnit {u : Token} (h : IsCloserUnit u) (ts : List Token) :
    skipIdent (u :: ts) = u :: ts := by
  rcases h with rfl | rfl | rfl <;> rfl

include hread in
theorem SpellsList.reads {skip : List Token → List Token}
    (hskip : ∀ {u}, IsCloserUnit u → ∀ ts, skip (u :: ts) = u :: ts) {close : Token}
    (hclose : IsCloserUnit close) {ts : List TypeExpr} {us : List Token}
    (h : SpellsList sp close ts us) (more : List Token) :
    ReadsList rd skip close (us ++ more) ts more := by
  induction h with
  | @last t us h =>
    rw [List.append_assoc]
    exact .last (hread t us h _ (.cons hclose _)) (hskip hclose _)
  | @more t ts us vs h _ ih =>
    rw [List.append_assoc]
    exact .more (hread t us h _ (.cons (.inl rfl) _)) (hskip (.inl rfl) _) ih

include hread in
theorem SpellsList.read_arguments {args : List TypeExpr} {us : List Token}
    (h : SpellsList sp .greater args us) {n : Nat} (hn : us.length ≤ n) (more : List Token) :
    readArguments src rd n (us ++ more) = .ok (args, more) :=
  readArguments_eq_ok_iff.mpr
    ⟨h.reads hread (fun _ _ => rfl) (.inr (.inl rfl)) more, h.length_le.trans hn⟩

include hread in
theorem SpellsList.read_params {ps : List TypeExpr} {us : List Token}
    (h : SpellsList sp .rightParen ps us) {n : Nat} (hn : us.length ≤ n) (more : List Token) :
    readParams src rd n (us ++ more) = .ok (ps, more) :=
  readParams_eq_ok_iff.mpr
    ⟨h.reads hread skipIdent_of_isCloserUnit (.inr (.inr rfl)) more, h.length_le.trans hn⟩

theorem SpellsArgs.starts {args : List TypeExpr} {us more : List Token} (h : SpellsArgs sp args us)
    (hmore : Starts EndsName more) : Starts (fun u => ∀ w, u ≠ .ident w) (us ++ more) := by
  have hus : Starts (fun u => ∀ w, u ≠ .ident w) us := by
    cases h with
    | absent => exact .nil
    | bracketed h => exact .cons (fun _ => by simp) _
  exact hus.append (hmore.mono fun _ hu => hu.2.2)

include hopens hread

theorem SpellsArgs.read {args : List TypeExpr} {us : List Token} (h : SpellsArgs sp args us)
    {more : List Token} (hmore : Starts EndsName more) :
    readTemplate src rd (us ++ more) = .ok (args, more) := by
  cases h with
  | absent =>
    unfold readTemplate
    rw [List.nil_append]
    split
    · exact absurd rfl (hmore .less rfl).1
    · exact absurd rfl (hmore .less rfl).1
    · rfl
  | @bracketed args us h =>
    obtain ⟨hstart, hne⟩ := h.opens hopens
    obtain ⟨u, vs, rfl⟩ := List.exists_cons_of_ne_nil hne
    have hlist := h.read_arguments src hread
      (n := (u :: vs ++ more).length + 1) (by simp; omega) more
    unfold readTemplate
    split
    · next heq =>
      cases heq
      exact absurd rfl (hstart .greater rfl).1
    · next heq =>
      cases heq
      exact hlist
    · next hno => exact absurd rfl (hno _)

omit hopens hread in
theorem SpellsSegments.length_le {name : List String} {us : List Token}
    (h : SpellsSegments name us) : name.length ≤ us.length := by
  induction h with
  | last h =>
    obtain ⟨w, us, rfl, -⟩ := h.exists_cons
    simp
  | scope h _ ih =>
    simp only [List.length_append, List.length_cons]
    omega

theorem SpellsSegments.reads {name : List String} {us : List Token} (h : SpellsSegments name us)
    {args : List TypeExpr} {vs : List Token} (hargs : SpellsArgs sp args vs) {more : List Token}
    (hmore : Starts EndsName more) :
    ReadsSegments src rd (us ++ (vs ++ more)) name args more := by
  induction h with
  | @last seg ws h =>
    obtain ⟨w, us, rfl, -⟩ := h.exists_cons
    exact .last (h.read (hargs.starts hmore)) (hargs.read src hopens hread hmore)
      (hmore.mono fun _ hu => hu.2.1)
  | @scope seg segs ws us h _ ih =>
    obtain ⟨w, ws, rfl, -⟩ := h.exists_cons
    rw [List.append_assoc]
    exact .scope (h.read (.cons (fun _ => by simp) _)) rfl ih

theorem SpellsName.read {name : List String} {args : List TypeExpr} {us : List Token}
    (h : SpellsName sp name args us) {more : List Token} (hmore : Starts EndsName more) :
    readName src rd (us ++ more) = .ok ((name, args), more) := by
  cases h with
  | ellipsis => rfl
  | numeral hd => rfl
  | @qualified name args us vs hname hfree hargs =>
    have hlength : name.length ≤ (us ++ (vs ++ more)).length := hname.length_le.trans (by simp)
    have hread' := readSegments_eq_ok_iff.mpr ⟨hname.reads src hopens hread hargs hmore, hlength⟩
    obtain ⟨w, ts, rfl⟩ := hname.exists_cons
    rw [List.append_assoc]
    exact hread'

omit hread in
theorem SpellsParams.opens {ps : List TypeExpr} {us : List Token} (h : SpellsParams sp ps us) :
    ps = [] ∧ us = [.rightParen] ∨
      SpellsList sp .rightParen ps us ∧ Starts OpensType us ∧ us ≠ [] := by
  cases h with
  | empty => exact .inl ⟨rfl, rfl⟩
  | listed h => exact .inr ⟨h, h.opens hopens⟩

theorem SpellsParams.read {ps : List TypeExpr} {us : List Token} (h : SpellsParams sp ps us)
    (more : List Token) :
    readPointer src rd (.leftParen :: .star :: .rightParen :: .leftParen :: us ++ more) =
      .ok (some ps, more) := by
  rcases h.opens hopens with ⟨rfl, rfl⟩ | ⟨hlist, hstart, hne⟩
  · rfl
  · obtain ⟨u, vs, rfl⟩ := List.exists_cons_of_ne_nil hne
    have hps := hlist.read_params src hread
      (n := (u :: vs ++ more).length + 1) (by simp; omega) more
    cases u with
    | rightParen => exact absurd rfl (hstart .rightParen rfl).2
    | _ => exact congrArg (· >>= fun r => pure (some r.1, r.2)) hps

omit hopens hread in
theorem SpellsName.starts {name : List String} {args : List TypeExpr} {us : List Token}
    (h : SpellsName sp name args us) :
    Starts (fun u => ∀ w ∈ keywords, u ≠ .ident w) us ∧ Starts OpensType us ∧ us ≠ [] := by
  cases h with
  | ellipsis => exact ⟨.cons (fun _ _ => by simp) _, .cons ⟨by decide, by decide⟩ _, by simp⟩
  | numeral hd => exact ⟨.cons (fun _ _ => by simp) _, .cons ⟨by simp, by simp⟩ _, by simp⟩
  | @qualified name args us vs hname hfree hargs =>
    have hfirst : ∀ {seg : String} {ws : List String} (ts : List Token), SpellsSegment seg ws →
        seg ∉ keywords → ∃ w vs, ws.map .ident ++ ts = .ident w :: vs ∧ w ∉ keywords := by
      intro seg ws ts h hseg
      obtain ⟨w, ws, rfl, ⟨rfl, rfl⟩ | hb⟩ := h.exists_cons
      · exact ⟨w, _, rfl, hseg⟩
      · have hdisjoint : ∀ w ∈ builtinWords, w ∉ keywords := by decide
        exact ⟨w, _, rfl, hdisjoint w hb⟩
    obtain ⟨w, ts, hus, hw⟩ : ∃ w ts, us ++ vs = .ident w :: ts ∧ w ∉ keywords := by
      cases hname with
      | last h => exact hfirst _ h (hfree _ rfl)
      | scope h hs =>
        rw [List.append_assoc]
        exact hfirst _ h (hfree _ rfl)
    rw [hus]
    refine ⟨.cons (fun u hu => ?_) _, .cons ⟨by simp, by simp⟩ _, by simp⟩
    simp only [ne_eq, Token.ident.injEq]
    rintro rfl
    exact hw hu

theorem SpellsType.read {budget : Nat} {t : TypeExpr} {us : List Token}
    (hrd : rd = readType src budget) (h : SpellsType sp t us) :
    ReadAs (readType src (budget + 1)) t us := by
  subst hrd
  intro more hmore
  have hmarks : Starts (fun u => u ≠ .leftBracket ∧ u ≠ .leftParen) more :=
    hmore.mono fun u hu => by obtain rfl | rfl | rfl := hu <;> decide
  have hfree : ∀ {ts}, Starts EndsName ts → Starts (fun u => ∀ w ∈ keywords, u ≠ .ident w) ts :=
    fun h => h.mono fun _ hu w _ => hu.2.2 w
  cases h with
  | @object name args us vs dims c v p r hname hds =>
    obtain ⟨hopen, -, -⟩ := hname.starts
    have htail := hds.starts_declarators (fun _ => endsName_of_mem)
      (hmore.mono fun _ hu => hu.endsName) p r
    have hafter : Starts EndsDeclarators (vs ++ more) :=
      hds.starts ⟨by decide, by decide, by decide, fun _ => by simp⟩
        (hmore.mono fun _ hu => hu.endsDeclarators)
    have hstart : Starts (fun u => ∀ w ∈ keywords, u ≠ .ident w)
        (us ++ (List.replicate p .star ++ (refUnits r ++ (vs ++ more)))) :=
      hopen.append (hfree htail)
    simp only [List.append_assoc]
    refine readType_of_parts (readCv_cvUnits hstart c v) (skipElaborated_of_starts hstart)
      (hname.read src hopens hread htail) (readCv_of_starts (hfree htail))
      ((readDeclarators_units hafter r p 0 false).trans (by rw [Nat.zero_add]))
      (readPointer_of_starts ?_) (hds.read (hmarks.mono fun _ hu => hu.1))
    exact hds.starts (by decide) (hmarks.mono fun _ hu => hu.2)
  | @function name args ps us vs ws dims c v hname hps hds =>
    obtain ⟨hopen, -, -⟩ := hname.starts
    have htail : Starts EndsName (.leftParen :: .star :: .rightParen :: .leftParen :: ws ++
        (vs ++ more)) := .cons ⟨by decide, by decide, fun _ => by simp⟩ _
    have hstart : Starts (fun u => ∀ w ∈ keywords, u ≠ .ident w)
        (us ++ (.leftParen :: .star :: .rightParen :: .leftParen :: ws ++ (vs ++ more))) :=
      hopen.append (hfree htail)
    simp only [List.append_assoc]
    refine readType_of_parts (readCv_cvUnits hstart c v) (skipElaborated_of_starts hstart)
      (hname.read src hopens hread htail) (readCv_of_starts (hfree htail))
      (readDeclarators_of_starts ?_) (hps.read src hopens hread _)
      (hds.read (hmarks.mono fun _ hu => hu.1))
    exact .cons ⟨by decide, by decide, by decide, fun _ => by simp⟩ _

end

theorem opens_cvUnits (c v : Bool) : Starts OpensType (cvUnits c v) := by
  cases c <;> cases v <;> first | exact .nil | exact .cons ⟨by decide, by decide⟩ _

theorem SpellsType.opens {sp : TypeExpr → List Token → Prop} {t : TypeExpr} {us : List Token}
    (h : SpellsType sp t us) : Starts OpensType us ∧ us ≠ [] := by
  cases h with
  | object c v p r hname hds =>
    obtain ⟨-, hopen, hne⟩ := hname.starts
    exact ⟨(opens_cvUnits c v).append (hopen.append_of_ne_nil hne _), by simp [hne]⟩
  | function c v hname hps hds =>
    obtain ⟨-, hopen, hne⟩ := hname.starts
    exact ⟨(opens_cvUnits c v).append (hopen.append_of_ne_nil hne _), by simp [hne]⟩

/-- Reading the units that spell a type gives that type. -/
theorem Spells.read (src : String) {budget : Nat} {t : TypeExpr} {us : List Token}
    (h : Spells budget t us) : ReadAs (readType src budget) t us := by
  induction budget generalizing t us with
  | zero => cases h
  | succ budget ih =>
    have htype : SpellsType (Spells budget) t us := h
    refine htype.read src (fun t us h => ?_) (fun _ _ => ih) rfl
    cases budget with
    | zero => cases h
    | succ budget => exact SpellsType.opens h

end BindingModel.TypeExpr
