import BindingModel.Proofs.TypeExpr.RoundTrip

/-! Which types are read of their own spelling. The indirections and the reference of the result of a
function pointer are printed behind the parameters, but they are read before them; so a spelling with
such a result is read as another type or not at all. -/
namespace BindingModel.TypeExpr
open Token

def IsDeclarator (u : Token) : Prop := u = .star ∨ u = .amp ∨ u = .ampAmp

theorem IsCloserUnit.not_isDeclarator {u : Token} (h : IsCloserUnit u) : ¬IsDeclarator u := by
  rcases h with rfl | rfl | rfl <;> simp [IsDeclarator]

/-- Reading the units of a printed type ends where they end, unless it ends at an indirection or a
reference, and it gives that type only if all the parts are rereadable. -/
def ReadsBack (rd : Reader TypeExpr) (t : TypeExpr) (us : List Token) : Prop :=
  ∀ more t' rest, Starts IsCloserUnit more → rd (us ++ more) = .ok (t', rest) →
    Starts (¬IsDeclarator ·) rest → rest = more ∧ (t' = t → t.allParts isRereadable = true)

/-- What may follow a printed name with its template arguments. -/
def FollowsName (u : Token) : Prop := EndsName u ∧ u ≠ .ellipsis ∧ ∀ d, u ≠ .number d

theorem IsCloserUnit.followsName {u : Token} (h : IsCloserUnit u) : FollowsName u := by
  refine ⟨h.endsName, ?_⟩
  rcases h with rfl | rfl | rfl <;> simp

theorem followsName_of_mem {u : Token} (hu : u ∈ [Token.star, .amp, .ampAmp, .leftBracket]) :
    FollowsName u := by
  refine ⟨endsName_of_mem hu, ?_⟩
  simp only [List.mem_cons, List.not_mem_nil, or_false] at hu
  rcases hu with rfl | rfl | rfl | rfl <;> simp

theorem readName_of_followsName {src : String} {rd : Reader TypeExpr} {ts : List Token}
    (h : Starts FollowsName ts) (r : (List String × List TypeExpr) × List Token) :
    readName src rd ts ≠ .ok r := by
  intro hread
  cases ts with
  | nil => cases hread
  | cons t ts =>
    obtain ⟨⟨-, hscope, hident⟩, hellipsis, hnumber⟩ := h t rfl
    cases t with
    | scope => exact hscope rfl
    | ident w => exact hident w rfl
    | ellipsis => exact hellipsis rfl
    | number d => exact hnumber d rfl
    | _ => cases hread

theorem hasPlainDims_of_spells {dims : List String} {us : List Token} (h : SpellsDims dims us) :
    dims.all isPlainDim = true := by
  induction h with
  | nil => rfl
  | @cons d ds us vs h _ ih =>
    rw [List.all_cons, ih, Bool.and_true]
    unfold isPlainDim
    cases h with
    | unbound => rfl
    | word hw => simp [scan_of_isWord hw]
    | numeral hd =>
      have hnumber : scan (d.toList ++ []) = some [.number d] :=
        scan_numeral (by simp [scan]) hd .nil
      rw [List.append_nil] at hnumber
      simp [hnumber]

/-! ### Lists of types -/

section
variable {sp : TypeExpr → List Token → Prop} {src : String} {rd : Reader TypeExpr}
variable (hopens : ∀ t us, sp t us → Starts OpensType us ∧ us ≠ [])
variable (hback : ∀ t us, sp t us → ReadsBack rd t us)

include hback in
/-- Reading a list from its spelling ends where the spelling ends, if what may be passed over behind
a type is no indirection and no reference. -/
theorem SpellsList.back {skip : List Token → List Token}
    (hskip : ∀ {u}, IsCloserUnit u → ∀ ts, skip (u :: ts) = u :: ts)
    (hfound : ∀ {u ts rest}, IsCloserUnit u → skip ts = u :: rest → Starts (¬IsDeclarator ·) ts)
    {close : Token} (hclose : IsCloserUnit close) (hcomma : close ≠ .comma)
    {as as' : List TypeExpr} {us more rest : List Token} (h : SpellsList sp close as us)
    (hread : ReadsList rd skip close (us ++ more) as' rest) :
    rest = more ∧ (as' = as → ∀ a ∈ as, a.allParts isRereadable = true) := by
  induction h generalizing as' with
  | @last t us h =>
    rw [List.append_assoc, List.singleton_append] at hread
    have hend := fun {t' ts} => hback t us h (close :: more) t' ts (.cons hclose _)
    cases hread with
    | last ht hclose' =>
      obtain ⟨rfl, ht'⟩ := hend ht (hfound hclose hclose')
      cases (hskip hclose _).symm.trans hclose'
      refine ⟨rfl, fun has => ?_⟩
      rw [List.singleton_inj] at has
      simpa using ht' has
    | more ht hcomma' _ =>
      obtain ⟨rfl, -⟩ := hend ht (hfound (.inl rfl) hcomma')
      exact absurd (List.cons.inj ((hskip hclose _).symm.trans hcomma')).1 hcomma
  | @more t as us vs h _ ih =>
    rw [List.append_assoc, List.cons_append] at hread
    have hend := fun {t' ts} => hback t us h (.comma :: (vs ++ more)) t' ts (.cons (.inl rfl) _)
    cases hread with
    | last ht hclose' =>
      obtain ⟨rfl, -⟩ := hend ht (hfound hclose hclose')
      exact absurd (List.cons.inj ((hskip (.inl rfl) _).symm.trans hclose')).1.symm hcomma
    | more ht hcomma' hnext =>
      obtain ⟨rfl, ht'⟩ := hend ht (hfound (.inl rfl) hcomma')
      cases (hskip (.inl rfl) _).symm.trans hcomma'
      obtain ⟨hrest, has'⟩ := ih hnext
      refine ⟨hrest, fun has => ?_⟩
      obtain ⟨hhead, htail⟩ := List.cons.inj has
      exact List.forall_mem_cons.mpr ⟨ht' hhead, has' htail⟩

omit hopens hback in
theorem starts_of_skipIdent {u : Token} {ts rest : List Token} (hu : IsCloserUnit u)
    (h : skipIdent ts = u :: rest) : Starts (¬IsDeclarator ·) ts := by
  unfold skipIdent at h
  split at h
  · exact .cons (p := (¬IsDeclarator ·)) (by simp [IsDeclarator]) _
  · rw [h]
    exact .cons (p := (¬IsDeclarator ·)) hu.not_isDeclarator _

include hopens hback

theorem SpellsArgs.template_back {args args' : List TypeExpr} {us more rest : List Token}
    (h : SpellsArgs sp args us) (hmore : Starts EndsName more)
    (hread : readTemplate src rd (us ++ more) = .ok (args', rest)) :
    rest = more ∧ (args' = args → ∀ a ∈ args, a.allParts isRereadable = true) := by
  cases h with
  | absent =>
    unfold readTemplate at hread
    rw [List.nil_append] at hread
    split at hread
    · exact absurd rfl (hmore .less rfl).1
    · exact absurd rfl (hmore .less rfl).1
    · cases hread
      exact ⟨rfl, by simp⟩
  | @bracketed _ us h =>
    obtain ⟨hstart, hne⟩ := h.opens hopens
    obtain ⟨u, us, rfl⟩ := List.exists_cons_of_ne_nil hne
    unfold readTemplate at hread
    split at hread
    · next heq =>
      cases heq
      exact absurd rfl (hstart .greater rfl).1
    · next heq =>
      cases heq
      have hlist := (readArguments_eq_ok_iff.mp hread).1
      refine h.back hback (fun _ _ => rfl) ?_ (.inr (.inl rfl)) (by decide) hlist
      rintro u ts rest hu rfl
      exact .cons (p := (¬IsDeclarator ·)) hu.not_isDeclarator _
    · next hno => exact absurd rfl (hno _)

theorem PrintsPointer.pointer_back {params? params'? : Option (List TypeExpr)}
    {us more rest : List Token} (h : PrintsPointer sp params? us)
    (hmore : Starts (· ≠ .leftParen) more)
    (hread : readPointer src rd (us ++ more) = .ok (params'?, rest)) :
    rest = more ∧ (params'? = params? → ∀ a ∈ params?.getD [], a.allParts isRereadable = true) := by
  cases h with
  | absent =>
    rw [List.nil_append, readPointer_of_starts hmore] at hread
    cases hread
    exact ⟨rfl, by simp⟩
  | @present ps us h =>
    rcases h.opens hopens with ⟨rfl, rfl⟩ | ⟨hlist, hstart, hne⟩
    · cases hread
      exact ⟨rfl, by simp⟩
    · obtain ⟨u, us, rfl⟩ := List.exists_cons_of_ne_nil hne
      have hparams : ∃ n ps', readParams src rd n (u :: us ++ more) = .ok (ps', rest) ∧
          params'? = some ps' := by
        cases u with
        | rightParen => exact absurd rfl (hstart .rightParen rfl).2
        | _ =>
          change (readParams src rd _ _ >>= fun r => pure (some r.1, r.2)) = _ at hread
          obtain ⟨⟨ps', ts⟩, hps, hread⟩ := Error.bind_eq_ok hread
          cases hread
          exact ⟨_, _, hps, rfl⟩
      obtain ⟨n, ps', hps, rfl⟩ := hparams
      have hreads := (readParams_eq_ok_iff.mp hps).1
      obtain ⟨hrest, hps'⟩ := hlist.back hback skipIdent_of_isCloserUnit starts_of_skipIdent
        (.inr (.inr rfl)) (by decide) hreads
      exact ⟨hrest, fun heq => hps' (Option.some.inj heq)⟩

/-! ### Names -/

theorem SpellsSegments.back {name name' : List String} {args args' : List TypeExpr}
    {us vs more rest : List Token} (h : SpellsSegments name us) (hargs : SpellsArgs sp args vs)
    (hmore : Starts EndsName more)
    (hread : ReadsSegments src rd (us ++ (vs ++ more)) name' args' rest) :
    name' = name ∧ rest = more ∧ (args' = args → ∀ a ∈ args, a.allParts isRereadable = true) := by
  induction h generalizing name' with
  | @last seg ws h =>
    obtain ⟨w, us, rfl, -⟩ := h.exists_cons
    have hseg := h.read (hargs.starts hmore)
    cases hread with
    | last hseg' htemplate _ =>
      obtain ⟨rfl, rfl⟩ := Prod.mk.inj (hseg.symm.trans hseg')
      obtain ⟨rfl, hargs'⟩ := hargs.template_back hopens hback hmore htemplate
      exact ⟨rfl, rfl, hargs'⟩
    | scope hseg' hdropped _ =>
      obtain ⟨rfl, rfl⟩ := Prod.mk.inj (hseg.symm.trans hseg')
      obtain ⟨rfl, -⟩ := hargs.template_back hopens hback hmore hdropped
      exact absurd rfl (hmore .scope rfl).2.1
  | @scope seg segs ws us h _ ih =>
    obtain ⟨w, ws, rfl, -⟩ := h.exists_cons
    have hseg : readSegment w (ws.map .ident ++ .scope :: (us ++ (vs ++ more))) = (seg, _) :=
      h.read (.cons (fun _ => by simp) _)
    rw [List.append_assoc] at hread
    cases hread with
    | last hseg' htemplate hend =>
      obtain ⟨rfl, rfl⟩ := Prod.mk.inj (hseg.symm.trans hseg')
      cases htemplate
      exact absurd rfl (hend .scope rfl)
    | scope hseg' hdropped hnext =>
      obtain ⟨rfl, rfl⟩ := Prod.mk.inj (hseg.symm.trans hseg')
      cases hdropped
      obtain ⟨rfl, hrest⟩ := ih hnext
      exact ⟨rfl, hrest⟩

omit hopens hback in
theorem SpellsSegment.of_mem_keywords {seg : String} {ws : List String}
    (h : SpellsSegment seg ws) (hseg : seg ∈ keywords) : ws = [seg] := by
  cases h with
  | word hw => rfl
  | @fold w u s us hw hb hu h =>
    have hblank : ∀ k ∈ keywords, ' ' ∉ k.toList := by decide
    exact absurd (by simp) (hblank _ hseg)

omit hopens hback in
/-- A keyword where the name is expected is passed over. -/
theorem skip_keyword {k : String} (hk : k ∈ keywords) (c v : Bool) {ts : List Token}
    (hts : Starts (fun u => ∀ w, u ≠ .ident w) ts) :
    skipElaborated (readCv false false (cvUnits c v ++ .ident k :: ts)).2 = ts := by
  have hfree : Starts (fun u => ∀ w ∈ keywords, u ≠ .ident w) ts :=
    hts.mono fun _ hu w _ => hu w
  have hcv : readCv false false (cvUnits c v ++ .ident k :: ts) = readCv c v (.ident k :: ts) := by
    cases c <;> cases v <;> rfl
  rw [hcv]
  have hqualifier : ∀ c v, skipElaborated (readCv c v ts).2 = ts := by
    intro c v
    rw [readCv_of_starts hfree, skipElaborated_of_starts hfree]
  simp only [keywords, elaboratedKeywords, List.mem_cons, List.not_mem_nil, or_false] at hk
  rcases hk with rfl | rfl | rfl | rfl | rfl | rfl | rfl
  · exact hqualifier true v
  · exact hqualifier c true
  all_goals rfl

/-- A name that begins with a keyword is read without it. -/
theorem PrintsName.name_back {name name' : List String} {args args' : List TypeExpr}
    {us more rest : List Token} (h : PrintsName sp name args us) (c v : Bool)
    (hmore : Starts FollowsName more)
    (hread : readName src rd (skipElaborated (readCv false false (cvUnits c v ++ (us ++ more))).2) =
      .ok ((name', args'), rest)) :
    rest = more ∧ (name' = name → args' = args →
      name.head?.all (· ∉ keywords) = true ∧ ∀ a ∈ args, a.allParts isRereadable = true) := by
  have hplain : ∀ {ts}, Starts (fun u => ∀ w ∈ keywords, u ≠ .ident w) ts →
      skipElaborated (readCv false false (cvUnits c v ++ ts)).2 = ts := by
    intro ts hts
    rw [readCv_cvUnits hts, skipElaborated_of_starts hts]
  cases h with
  | ellipsis =>
    rw [List.singleton_append, hplain (.cons (fun _ _ => by simp) _)] at hread
    cases hread
    exact ⟨rfl, fun _ _ => by decide⟩
  | @numeral d hd =>
    rw [List.singleton_append, hplain (.cons (fun _ _ => by simp) _)] at hread
    cases hread
    refine ⟨rfl, fun _ _ => ⟨?_, by simp⟩⟩
    obtain ⟨x, s, hx, -, hstart, -, -⟩ := hd
    have hword : ∀ k ∈ keywords, k.toList.head?.any Text.isNameStart = true := by decide
    simp only [List.head?_cons, Option.all_some, decide_eq_true_eq]
    intro hk
    have hx' := hword d hk
    rw [hx] at hx'
    simp [hstart] at hx'
  | @qualified _ _ us vs hname hargs =>
    have hends : Starts EndsName more := hmore.mono fun _ hu => hu.1
    by_cases hfree : ∀ w ∈ name.head?, w ∉ keywords
    · obtain ⟨hopen, -, hne⟩ := (SpellsName.qualified hname hfree hargs).starts
      rw [hplain (hopen.append_of_ne_nil hne more), List.append_assoc] at hread
      obtain ⟨w, ts, hus⟩ := hname.exists_cons
      have hsegments : ReadsSegments src rd (us ++ (vs ++ more)) name' args' rest := by
        rw [hus] at hread ⊢
        exact (readSegments_eq_ok_iff.mp hread).1
      obtain ⟨-, hrest, hargs'⟩ := hname.back hopens hback hargs hends hsegments
      refine ⟨hrest, fun _ heq => ⟨?_, hargs' heq⟩⟩
      rw [Option.all_eq_true]
      exact fun w hw => decide_eq_true (hfree w hw)
    · obtain ⟨k, hhead, hk⟩ : ∃ k ∈ name.head?, k ∈ keywords := by simpa using hfree
      rw [List.append_assoc] at hread
      cases hname with
      | @last seg ws h =>
        obtain rfl := Option.some.inj hhead
        rw [h.of_mem_keywords hk, List.map_singleton, List.singleton_append,
          skip_keyword hk c v (hargs.starts hends)] at hread
        cases hargs with
        | absent => exact absurd hread (readName_of_followsName hmore _)
        | bracketed h => cases hread
      | @scope seg segs ws us h hs =>
        obtain rfl := Option.some.inj hhead
        rw [h.of_mem_keywords hk, List.map_singleton, List.singleton_append, List.cons_append,
          List.cons_append, skip_keyword hk c v (.cons (fun _ => by simp) _)] at hread
        have hsegments := (readSegments_eq_ok_iff.mp hread).1
        obtain ⟨rfl, hrest, -⟩ := hs.back hopens hback hargs hends hsegments
        exact ⟨hrest, fun heq => absurd heq (List.cons_ne_self _ _).symm⟩

/-! ### Types -/

omit hopens hback in
theorem no_declarators {p : Nat} {r : RefKind} {ts rest : List Token} {dims : List String}
    (h : readDimensions src none (List.replicate p .star ++ (refUnits r ++ ts)) = .ok (dims, rest))
    (hrest : Starts (¬IsDeclarator ·) rest) : p = 0 ∧ r = .none := by
  cases p with
  | zero =>
    cases r with
    | none => exact ⟨rfl, rfl⟩
    | lvalue =>
      cases h
      exact absurd (.inr (.inl rfl)) (hrest .amp rfl)
    | rvalue =>
      cases h
      exact absurd (.inr (.inr rfl)) (hrest .ampAmp rfl)
  | succ p =>
    cases h
    exact absurd (.inl rfl) (hrest .star rfl)

theorem PrintsType.readsBack {budget : Nat} {t : TypeExpr} {us : List Token}
    (hrd : rd = readType src budget) (h : PrintsType sp t us) :
    ReadsBack (readType src (budget + 1)) t us := by
  subst hrd
  intro more t' rest hmore hread hrest
  obtain ⟨c', v', ts₁, ts₂, ts₃, ts₄, ts₅, hcv, hreadName, hcv', hdecl, hpointer, hdims'⟩ :=
    parts_of_readType hread
  cases h with
  | @parts name dims args params? us vs ws c v p r hname hparams hdims =>
    simp only [List.append_assoc] at hcv
    have hends := hdims.starts_declarators (fun _ => followsName_of_mem)
      (hmore.mono fun _ hu => hu.followsName) p r
    have htail : Starts FollowsName
        (ws ++ (List.replicate p .star ++ (refUnits r ++ (vs ++ more)))) := by
      cases hparams with
      | absent => exact hends
      | present h => exact .cons ⟨⟨by decide, by decide, fun _ => by simp⟩, by simp⟩ _
    have hts₁ := congrArg Prod.snd hcv
    dsimp only at hts₁
    rw [← hts₁] at hreadName
    obtain ⟨rfl, hparts⟩ := hname.name_back hopens hback c v htail hreadName
    rw [readCv_of_starts (htail.mono fun _ hu w _ => hu.1.2.2 w)] at hcv'
    obtain ⟨-, rfl⟩ := Prod.mk.inj hcv'
    have hafter : Starts EndsDeclarators (vs ++ more) :=
      hdims.starts ⟨by decide, by decide, by decide, fun _ => by simp⟩
        (hmore.mono fun _ hu => hu.endsDeclarators)
    have hmarks : Starts (fun u => u ≠ .leftBracket ∧ u ≠ .leftParen) more :=
      hmore.mono fun u hu => by obtain rfl | rfl | rfl := hu <;> decide
    have hdimsRead : readDimensions src none (vs ++ more) = .ok (dims, more) :=
      hdims.read (hmarks.mono fun _ hu => hu.1)
    have hplainDims := hasPlainDims_of_spells hdims
    cases hparams with
    | absent =>
      rw [List.nil_append, readDeclarators_units hafter r p 0 false] at hdecl
      obtain ⟨-, rfl⟩ := Prod.mk.inj hdecl
      rw [readPointer_of_starts (hdims.starts (by decide) (hmarks.mono fun _ hu => hu.2))]
        at hpointer
      obtain ⟨-, rfl⟩ := Prod.mk.inj (Except.ok.inj hpointer)
      rw [hdimsRead] at hdims'
      obtain ⟨-, rfl⟩ := Prod.mk.inj (Except.ok.inj hdims')
      refine ⟨rfl, ?_⟩
      rintro rfl
      obtain ⟨hfree, hargs⟩ := hparts rfl rfl
      refine allParts_iff.mpr ⟨isRereadable_iff.mpr ⟨fun h => ?_, hplainDims, hfree⟩, hargs, ?_⟩
      · cases h
      · simp [params]
    | @present ps ws h =>
      rw [List.cons_append, readDeclarators_of_starts
        (.cons ⟨by decide, by decide, by decide, fun _ => by simp⟩ _)] at hdecl
      obtain ⟨-, rfl⟩ := Prod.mk.inj hdecl
      have hparen := hdims.starts_declarators (q := (· ≠ .leftParen)) (by decide)
        (hmarks.mono fun _ hu => hu.2) p r
      obtain ⟨rfl, hps⟩ := (PrintsPointer.present h).pointer_back hopens hback hparen hpointer
      obtain ⟨rfl, rfl⟩ := no_declarators hdims' hrest
      obtain ⟨-, rfl⟩ := Prod.mk.inj (Except.ok.inj (hdimsRead.symm.trans hdims'))
      refine ⟨rfl, ?_⟩
      rintro rfl
      obtain ⟨hfree, hargs⟩ := hparts rfl rfl
      refine allParts_iff.mpr ⟨isRereadable_iff.mpr ⟨fun _ => ?_, hplainDims, hfree⟩, hargs, hps rfl⟩
      exact ⟨rfl, rfl⟩

end

theorem PrintsType.opens {sp : TypeExpr → List Token → Prop} {t : TypeExpr} {us : List Token}
    (h : PrintsType sp t us) : Starts OpensType us ∧ us ≠ [] := by
  cases h with
  | @parts name dims args params? us vs ws c v p r hname hparams hdims =>
    have hopens : Starts OpensType us ∧ us ≠ [] := by
      cases hname with
      | ellipsis => exact ⟨.cons ⟨by decide, by decide⟩ _, by simp⟩
      | numeral hd => exact ⟨.cons ⟨by simp, by simp⟩ _, by simp⟩
      | qualified hname hargs =>
        obtain ⟨w, ts, rfl⟩ := hname.exists_cons
        exact ⟨.cons ⟨by simp, by simp⟩ _, by simp⟩
    obtain ⟨hopen, hne⟩ := hopens
    exact ⟨(opens_cvUnits c v).append (hopen.append_of_ne_nil hne _), by simp [hne]⟩

theorem Prints.readsBack (src : String) {budget : Nat} {t : TypeExpr} {us : List Token}
    (h : Prints budget t us) : ReadsBack (readType src budget) t us := by
  induction budget generalizing t us with
  | zero => cases h
  | succ budget ih =>
    have htype : PrintsType (Prints budget) t us := h
    refine htype.readsBack (fun t us h => ?_) (fun _ _ => ih) rfl
    cases budget with
    | zero => cases h
    | succ budget => exact PrintsType.opens h

/-- The spelling of a type that was read of a text is read as the same type exactly when the results
of all function pointers in it have no indirection and no reference, and no name in it begins with a
word that is passed over. -/
theorem parse_text_iff {s : String} {t : TypeExpr} (h : parse s = .ok t)
    (ht : t.allParts hasPlainDims = true) :
    parse t.text = .ok t ↔ t.allParts isRereadable = true := by
  constructor
  · intro hagain
    obtain ⟨us, hus, hscan⟩ := exists_prints h ht
    obtain ⟨us', hscan', hread⟩ := parse_eq_ok hagain
    obtain rfl := Option.some.inj (hscan.symm.trans hscan')
    exact (hus.readsBack t.text [] t [] .nil (by rwa [List.append_nil]) .nil).2 rfl
  · exact parse_text_of_allParts (fun _ hu => hu) h

theorem parse_text_iff_callback :
    ∃ t : TypeExpr, parse "Map<void (*)( T const* , int (*f)() )>" = .ok t ∧
      t.allParts hasPlainDims = true ∧ t.text = "Map<void (*)(const T*, int (*)())>" ∧
      parse t.text = .ok t := by
  let f : TypeExpr := { name := ["int"], params? := some [] }
  let callback : TypeExpr := {
    name := ["void"]
    params? := some [{ name := ["T"], isConst := true, pointers := 1 }, f] }
  let t : TypeExpr := { name := ["Map"], args := [callback] }
  have h : parse "Map<void (*)( T const* , int (*f)() )>" = .ok t := by cbv
  have ht : t.allParts hasPlainDims = true := by cbv
  have hparts : t.allParts isRereadable = true := by cbv
  exact ⟨t, h, ht, by cbv, (parse_text_iff h ht).mpr hparts⟩

/-- A function pointer whose result is a pointer is not read of its spelling. -/
theorem pointer_result_not_reread :
    ∃ t : TypeExpr, parse "int* (*)(int)" = .ok t ∧ t.allParts hasPlainDims = true ∧
      t.isFunctionPointer = true ∧ t.text = "int (*)(int)*" ∧
      ∀ u, parse t.text ≠ .ok u := by
  let t : TypeExpr := { name := ["int"], pointers := 1, params? := some [{ name := ["int"] }] }
  have h : parse "int* (*)(int)" = .ok t := by cbv
  have htext : t.text = "int (*)(int)*" := by cbv
  have hfail : parse "int (*)(int)*" = fail (.trailing "*" "int (*)(int)*") := by cbv
  refine ⟨t, h, by cbv, by cbv, htext, fun u hu => ?_⟩
  rw [htext, hfail] at hu
  cases hu

end BindingModel.TypeExpr
