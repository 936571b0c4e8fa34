import BindingModel.Proofs.Assembly.CopyKinds

/-! The defaults of a method that a header declares, and of the same method as a rule adds it. -/
namespace BindingModel
open Api Header

/-- The types of the arguments are all that a signature reads of them. -/
theorem Api.Function.signature_congr_of_types {f g : Function}
    (hname : f.declaredName = g.declaredName)
    (htypes : f.args.map (·.type) = g.args.map (·.type)) (hconst : f.has .const = g.has .const) :
    f.signature = g.signature := by
  have hargs := congrArg (List.map BoundType.signature) htypes
  simp only [List.map_map, Function.comp_def] at hargs
  exact signature_congr hname hargs hconst

namespace Assembly

/-! ### One default -/

/-- The default after a replacement and a removal. -/
def settledDefault (change : Option String × Bool) (default? : Option String) : Option String :=
  if change.2 then none else change.1.or default?

theorem default?_fixArgumentDefault (mods : List FunctionMod) (class? : Option BoundClass)
    (k : Nat) {x : Argument} (hx : x.default? = none) :
    (fixArgumentDefault mods class? k x).default? = settledDefault (defaultChange mods k)
      (x.declaredDefault?.map fun e => fixDefault e x.type class?) := by
  unfold fixArgumentDefault settledDefault
  dsimp only
  cases x.declaredDefault? with
  | none =>
    dsimp only
    split
    · exact hx
    · rw [hx]
      rfl
  | some e =>
    cases (defaultChange mods k).1 <;> rfl

theorem settledDefault_eq_iff (change : Option String × Bool) (fixed? written? : Option String) :
    settledDefault change fixed? = (if change.2 then written? else change.1.or written?) ↔
      if change.2 then written? = none else change.1 = none → fixed? = written? := by
  obtain ⟨replaced?, removed⟩ := change
  cases removed
  · cases replaced? <;> simp [settledDefault]
  · simp [settledDefault, eq_comm]

/-- A rule keeps a default that is to be removed. -/
theorem default?_replaceDefault (mods : List FunctionMod) (k : Nat) (x : Argument) :
    (Draft.replaceDefault mods k x).default? =
      if (defaultChange mods k).2 then x.default? else (defaultChange mods k).1.or x.default? := by
  unfold Draft.replaceDefault
  cases h : defaultChange mods k with
  | mk replaced? removed =>
    cases replaced? <;> cases removed <;> rfl

/-- Neither the kind nor the defaults of an added function are part of its signature. -/
theorem Draft.signature_finishAdded (d : Draft) (c : ClassId) (f : Function) :
    (d.finishAdded c f).signature = f.signature := by
  have hkind : ∀ g : Function, (addedKind (d.lookup.store.get c) g).declaredName =
      g.declaredName ∧ (addedKind (d.lookup.store.get c) g).has .const = g.has .const := by
    intro g
    unfold addedKind
    split
    · split
      · exact ⟨rfl, by simp [Function.has, FlagSet.has_insertIf]⟩
      · exact ⟨rfl, rfl⟩
    · exact ⟨rfl, rfl⟩
  obtain ⟨hlength, hkept⟩ := d.finishAdded_args c f
  refine Function.signature_congr_of_types (hkind _).1 ?_ ((hkind _).2.trans ?_)
  · refine List.ext_getElem (by simp [hlength]) fun k hk hk' => ?_
    rw [List.length_map] at hk hk'
    obtain ⟨y, hy, htype, -⟩ := hkept k _ (List.getElem?_eq_getElem hk')
    rw [List.getElem_map, List.getElem_map, ← htype]
    rw [List.getElem?_eq_getElem hk] at hy
    rw [Option.some.inj hy]
  · simp [Function.has, FlagSet.has_insertIf]

/-! ### Both ways -/

/-- The rule adds the plain public method that the header declares. -/
structure SameMethod (d : FunctionDecl) (a : AddedFunction) : Prop where
  name : a.name = d.name
  args : a.args = d.args.map fun p => ⟨p.name, p.type, p.default?⟩
  returnType : a.returnType = d.returnType
  isConst : a.isConst = d.specifiers.has .const
  kind : d.kind = .normal
  access : d.access = .pub
  variadic : d.specifiers.has .variadic = false
  operator : isOperatorName d.name = false

/-- All types of the declaration can be bound. -/
structure Resolves (draft : Draft) (d : FunctionDecl) : Prop where
  returnType : d.returnType.isVoid = true ∨ ∃ t, draft.bindType d.returnType = .ok t
  args : ∀ p ∈ d.args, p.type.isVoid = false ∧ ∃ t, draft.bindType p.type = .ok t

section
variable {draft : Draft} {d : FunctionDecl} {a : AddedFunction}

theorem Resolves.parameters_eq (h : Resolves draft d) : Draft.parameters d = d.args := by
  unfold Draft.parameters
  refine if_neg fun ⟨hone, hvoid⟩ => ?_
  obtain ⟨p, hp⟩ := List.length_eq_one_iff.mp hone
  have hfalse := (h.args p (by simp [hp])).1
  simp [hp, hfalse] at hvoid

theorem Resolves.returns (h : Resolves draft d) : ∃ returnType?, draft.Returns d returnType? := by
  unfold Draft.Returns
  split
  · next hreturns =>
    rcases h.returnType with hvoid | ⟨t, ht⟩
    · unfold Draft.returns at hreturns
      split at hreturns <;> simp_all
    · exact ⟨some t, t, ht, rfl⟩
  · exact ⟨none, rfl⟩

theorem has_const_attrsOf (flags : FlagSet Specifier) :
    (attrsOf flags).has .const = flags.has .const := by
  unfold attrsOf
  simp only [FlagSet.has_insertIf]
  simp [FlagSet.has]

/-- There is an argument for every parameter, of the type that the parameter is bound to. -/
structure BoundArgs (draft : Draft) (d : FunctionDecl) (args : List Argument) : Prop where
  length : args.length = d.args.length
  type : ∀ (k : Nat) x, args[k]? = some x →
    ∃ p, d.args[k]? = some p ∧ draft.bindType p.type = .ok x.type

/-- The types that parameters are bound to do not depend on who binds them. -/
theorem BoundArgs.map_type_eq {args args' : List Argument} (h : BoundArgs draft d args)
    (h' : BoundArgs draft d args') : args.map (·.type) = args'.map (·.type) := by
  refine List.ext_getElem (by simp [h.length, h'.length]) fun k hk hk' => ?_
  rw [List.length_map] at hk hk'
  obtain ⟨p, hp, hbound⟩ := h.type k _ (List.getElem?_eq_getElem hk)
  obtain ⟨p', hp', hbound'⟩ := h'.type k _ (List.getElem?_eq_getElem hk')
  obtain rfl := Option.some.inj (hp.symm.trans hp')
  rw [List.getElem_map, List.getElem_map]
  exact Except.ok.inj (hbound.symm.trans hbound')

/-- The function has an argument for every parameter, with the default that the position, the type
and the written default of the parameter make. -/
structure HasDefaults (draft : Draft) (d : FunctionDecl)
    (default : Nat → BoundType → Option String → Option String) (g : Function) : Prop where
  length : g.args.length = d.args.length
  default? : ∀ (k : Nat) p, d.args[k]? = some p → ∃ t y, draft.bindType p.type = .ok t ∧
    g.args[k]? = some y ∧ y.default? = default k t p.default?

theorem BoundArgs.hasDefaults {args : List Argument} (h : BoundArgs draft d args) {g : Function}
    {default : Nat → BoundType → Option String → Option String}
    (hlength : g.args.length = args.length)
    (hg : ∀ (k : Nat) x p, args[k]? = some x → d.args[k]? = some p →
      ∃ y, g.args[k]? = some y ∧ y.default? = default k x.type p.default?) :
    HasDefaults draft d default g := by
  refine ⟨hlength.trans h.length, fun k p hp => ?_⟩
  have hk := (List.getElem?_eq_some_iff.mp hp).1
  have hx := List.getElem?_eq_getElem (h.length.symm ▸ hk)
  obtain ⟨q, hq, hbound⟩ := h.type k _ hx
  obtain rfl := Option.some.inj (hp.symm.trans hq)
  obtain ⟨y, hy, hdefault⟩ := hg k _ p hx hp
  exact ⟨_, y, hbound, hy, hdefault⟩

/-- What a header's default becomes. -/
def declaredDefault (mods : List FunctionMod) (class? : Option BoundClass) (k : Nat)
    (t : BoundType) (written? : Option String) : Option String :=
  settledDefault (defaultChange mods (k + 1)) (written?.map fun e => fixDefault e t class?)

/-- What a rule's default becomes. -/
def addedDefault (mods : List FunctionMod) (k : Nat) (_ : BoundType) (written? : Option String) :
    Option String :=
  if (defaultChange mods (k + 1)).2 then written? else (defaultChange mods (k + 1)).1.or written?

section
variable {c : ClassId} {skipDeprecated : Bool} (hc : draft.class? = some c)
  (hlive : draft.lookup.store.isLive c = true) (hresolves : Resolves draft d)
include hc hlive hresolves

/-- The modifications of the signature settle the defaults of the declaration. -/
theorem judge_defaults (hvariadic : d.specifiers.has .variadic = false)
    (hscreen : screen? draft.lookup.db skipDeprecated d draft.classOf? = none) :
    ∃ returnType? args g, (draft.judge skipDeprecated d).1 = .built g ∧
      (g.kind = draft.kindOf d ∨ g.isAssignment = true) ∧ BoundArgs draft d args ∧
      HasDefaults draft d (declaredDefault (draft.lookup.db.modsFor
        (draft.lookup.store.get c).entry (draft.drafted d returnType? args).signature)
          draft.classOf?) g := by
  have hparameters := hresolves.parameters_eq
  obtain ⟨returnType?, hreturns⟩ := hresolves.returns
  obtain ⟨args, ws, hbound⟩ : ∃ args ws,
      draft.bindArguments (declKey d draft.className) 0 d.args = .ok (args, ws) :=
    Draft.exists_bindArguments fun p hp => (hresolves.args p hp).2
  have hgives : ∀ (k : Nat) x, args[k]? = some x → ∃ p, d.args[k]? = some p ∧ draft.Gives p x :=
    fun k x hx => Draft.bindArguments_gives hbound hx
  have hargs : BoundArgs draft d args := by
    refine ⟨Draft.length_bindArguments hbound fun p hp => .inr (hresolves.args p hp).2, ?_⟩
    intro k x hx
    obtain ⟨p, hp, hgiven⟩ := hgives k x hx
    exact ⟨p, hp, hgiven.type⟩
  let made := draft.drafted d returnType? args
  have hmade : made.args = args := Draft.args_drafted hvariadic _ _
  obtain ⟨hedited, hkept⟩ := Draft.finish_edited hc made
  refine ⟨returnType?, args, (draft.finish made).1, ?_, ?_, hargs,
    hargs.hasDefaults (by rw [hedited, hmade]) fun k x p hx hp => ?_⟩
  · exact Draft.judge_eq_built_iff.mpr
      ⟨hscreen, returnType?, args, ws, hreturns, hparameters ▸ hbound, rfl⟩
  · rcases (draft.finish_kept made).2.2 with hsame | hassignment | hassignment
    · exact .inl hsame
    · exact .inr (by simp [Function.isAssignment, hassignment])
    · exact .inr (by simp [Function.isAssignment, hassignment])
  · obtain ⟨q, hq, hgiven⟩ := hgives k x hx
    obtain rfl := Option.some.inj (hp.symm.trans hq)
    obtain ⟨y, hy, hedit⟩ := hkept k x (hmade ▸ hx)
    refine ⟨y, hy, ?_⟩
    rw [hedit.default?, modsOf_of_isLive hlive rfl,
      default?_fixArgumentDefault _ _ _ hgiven.default?, hgiven.declaredDefault?]
    rfl

/-- The modifications of the signature settle the defaults of the rule. -/
theorem added_defaults (hsame : SameMethod d a) :
    ∃ returnType? args g, draft.added a = .ok (g, []) ∧ BoundArgs draft d args ∧
      g.signature = (Draft.addedDraft a returnType? args).signature ∧
      HasDefaults draft d (addedDefault
        (draft.lookup.db.modsFor (draft.lookup.store.get c).entry g.signature)) g := by
  have hreturns : ∃ returnType?, draft.ReturnsAdded a returnType? := by
    unfold Draft.ReturnsAdded
    rw [hsame.returnType]
    split
    · exact ⟨none, rfl⟩
    · next hvoid =>
      obtain ⟨t, ht⟩ := hresolves.returnType.resolve_left hvoid
      exact ⟨some t, t, ht, rfl⟩
  obtain ⟨returnType?, hreturns⟩ := hreturns
  obtain ⟨args, hadded⟩ := Draft.exists_bindAdded (d := draft) (i := 0) (l := a.args) fun p hp => by
    rw [hsame.args] at hp
    obtain ⟨q, hq, rfl⟩ := List.mem_map.mp hp
    exact (hresolves.args q hq).2
  obtain ⟨hlength, hgives⟩ := Draft.bindAdded_gives hadded
  have hgives : ∀ (k : Nat) x, args[k]? = some x → ∃ p, d.args[k]? = some p ∧
      draft.bindType p.type = .ok x.type ∧ x.default? = p.default? := by
    intro k x hx
    obtain ⟨p, hp, hgiven⟩ := hgives k x hx
    rw [hsame.args, List.getElem?_map] at hp
    obtain ⟨q, hq, rfl⟩ := Option.map_eq_some_iff.mp hp
    exact ⟨q, hq, hgiven.type, hgiven.default?⟩
  have hargs : BoundArgs draft d args := by
    refine ⟨by rw [hlength, hsame.args, List.length_map], fun k x hx => ?_⟩
    obtain ⟨p, hp, htype, -⟩ := hgives k x hx
    exact ⟨p, hp, htype⟩
  let made := Draft.addedDraft a returnType? args
  have hreverse : draft.reverseOperator made = (made, []) := by
    refine draft.reverseOperator_of_not_operator ?_
    show isOperatorName a.name = false
    rw [hsame.name]
    exact hsame.operator
  obtain ⟨hfinished, hkept⟩ := draft.finishAdded_args c made
  have hsignature : (draft.finishAdded c made).signature = made.signature :=
    draft.signature_finishAdded c made
  refine ⟨returnType?, args, draft.finishAdded c made, ?_, hargs, hsignature,
    hargs.hasDefaults hfinished fun k x p hx hp => ?_⟩
  · exact (Draft.added_eq_ok_iff hc).mpr
      ⟨returnType?, args, hreturns, hadded, by rw [hreverse], by rw [hreverse]⟩
  · obtain ⟨q, hq, -, hdefault⟩ := hgives k x hx
    obtain rfl := Option.some.inj (hp.symm.trans hq)
    obtain ⟨y, hy, -, hreplaced⟩ := hkept k x hx
    refine ⟨y, hy, ?_⟩
    rw [hreplaced, modsOf_of_isLive hlive rfl, default?_replaceDefault, hsignature, hdefault]
    rfl

end

/-- The same modifications are found for both. -/
theorem signature_drafted (draft : Draft) (hsame : SameMethod d a) {args args' : List Argument}
    (htypes : args.map (·.type) = args'.map (·.type))
    (returnType? returnType?' : Option BoundType) :
    (draft.drafted d returnType? args).signature =
      (Draft.addedDraft a returnType?' args').signature := by
  refine Function.signature_congr_of_types hsame.name.symm ?_ ?_
  · rw [Draft.args_drafted hsame.variadic]
    exact htypes
  · show (attrsOf d.specifiers).has .const = ((FlagSet.ofList _).insertIf _ _ |>.insertIf _ _).has _
    have hnew : (FlagSet.ofList [FunctionAttr.added, .finalInTargetLang]).has .const = false := rfl
    simp [has_const_attrsOf, ← hsame.isConst, FlagSet.has_insertIf, hnew]

theorem kindInClass_ne_destructor (hd : d.kind = .normal) (name : String) :
    kindInClass d name ≠ .destructor := by
  have hkind : (if Api.FunctionKind.ofDecl d.kind = .normal ∧
      Text.withoutArguments d.name = name then Api.FunctionKind.constructor
      else .ofDecl d.kind) ≠ .destructor := by
    rw [hd]
    split <;> simp [Api.FunctionKind.ofDecl]
  unfold kindInClass
  dsimp only
  split
  · split
    · split <;> simp
    · simp
  · exact hkind

/-- A function that is neither private nor a destructor becomes a member with its arguments. -/
theorem memberOf_of_built {env : Env} {path : List String} {i : ClassId} {s : State} {g : Function}
    (h : (Draft.judge ⟨s.lookup env, path, some i⟩ env.config.skipDeprecated d).1 = .built g)
    (hkind : g.kind ≠ .destructor) (haccess : d.access ≠ .priv) :
    ∃ f, memberOf env path i s d = some f ∧ f.args = g.args := by
  have hkept : ¬ (g.kind = .destructor ∨ g.kind = .constructor ∧ d.access = .priv) := by
    rintro (hd | ⟨-, hd⟩)
    · exact hkind hd
    · exact haccess hd
  exact ⟨_, memberOf_eq_some_iff.mpr ⟨g, h, hkept, rfl⟩, (SameMaking.finishMember s _ _).args⟩

end

/-- A method that the header declares and a rule adds as well gets the same arguments both times,
but not the same defaults: only the header's are put right, and only they can be removed. At a
position the defaults are the same exactly if none is written where one is to be removed; or, where
none is to be removed, if one is put in its place or the one that is written is right. -/
theorem defaults_agree_iff {env : Env} {path : List String} {i : ClassId} {s : State}
    {d : FunctionDecl} {a : AddedFunction} (hlive : s.store.isLive i = true)
    (hsame : SameMethod d a) (hresolves : Resolves ⟨s.lookup env, path, some i⟩ d)
    (hscreen : screen? s.db env.config.skipDeprecated d (some (s.store.get i)) = none) :
    let draft : Draft := ⟨s.lookup env, path, some i⟩
    ∃ f g, memberOf env path i s d = some f ∧ draft.added a = .ok (g, []) ∧
      f.args.length = d.args.length ∧ g.args.length = d.args.length ∧
      ∀ (k : Nat) p, d.args[k]? = some p → ∃ t x y,
        draft.bindType p.type = .ok t ∧ f.args[k]? = some x ∧ g.args[k]? = some y ∧
        let change := defaultChange (s.db.modsFor (s.store.get i).entry g.signature) (k + 1)
        let fixed? := p.default?.map fun e => fixDefault e t (some (s.store.get i))
        x.default? = settledDefault change fixed? ∧
        y.default? = (if change.2 then p.default? else change.1.or p.default?) ∧
        (x.default? = y.default? ↔
          if change.2 then p.default? = none else change.1 = none → fixed? = p.default?) := by
  intro draft
  obtain ⟨_, args, g₀, hbuilt, hkind, hargs, hdeclared⟩ :=
    judge_defaults (c := i) rfl hlive hresolves hsame.variadic hscreen
  obtain ⟨_, args', g, hadded, hargs', hsignature, hrule⟩ :=
    added_defaults (c := i) rfl hlive hresolves hsame
  have hdestructor : g₀.kind ≠ .destructor := by
    rcases hkind with hkind | hassigned
    · rw [hkind]
      exact kindInClass_ne_destructor hsame.kind _
    · intro h
      simp [Function.isAssignment, h] at hassigned
  obtain ⟨f, hf, hsameArgs⟩ := memberOf_of_built hbuilt hdestructor (by simp [hsame.access])
  rw [signature_drafted draft hsame (hargs.map_type_eq hargs'), ← hsignature] at hdeclared
  refine ⟨f, g, hf, hadded, hsameArgs ▸ hdeclared.length, hrule.length, fun k p hp => ?_⟩
  obtain ⟨t, x, ht, hx, hxdefault⟩ := hdeclared.default? k p hp
  obtain ⟨t', y, ht', hy, hydefault⟩ := hrule.default? k p hp
  obtain rfl := Except.ok.inj (ht.symm.trans ht')
  refine ⟨t, x, y, ht, hsameArgs ▸ hx, hy, hxdefault, hydefault, ?_⟩
  rw [hxdefault, hydefault]
  exact settledDefault_eq_iff _ _ _

theorem defaults_agree_iff_true :
    let env : Env := .make {} {}
    let bool : Entry := ⟨some 0, "bool", .primitive⟩
    let s : State := {
      db := { entries := [bool] }
      store := { classes := #[{ entry := ⟨some 1, "Switch", .complex .value {}⟩ }] }
      registry := { members := [0] } }
    let draft : Draft := ⟨s.lookup env, ["Switch"], some 0⟩
    let turn : FunctionDecl := {
      name := "turn"
      args := [{ name := "on", type := .ofName "bool", default? := some "true" }] }
    let rule : AddedFunction := {
      name := "turn", args := [⟨"on", .ofName "bool", some "true"⟩]
      returnType := .ofName "void", isConst := false }
    s.store.isLive 0 = true ∧ SameMethod turn rule ∧ Resolves draft turn ∧
      screen? s.db env.config.skipDeprecated turn (some (s.store.get 0)) = none ∧
      ∃ f g x y, memberOf env ["Switch"] 0 s turn = some f ∧ draft.added rule = .ok (g, []) ∧
        f.args[0]? = some x ∧ g.args[0]? = some y ∧ x.default? = y.default? := by
  intro env bool s draft turn rule
  have hlive : s.store.isLive 0 = true := rfl
  have hsame : SameMethod turn rule := ⟨rfl, rfl, rfl, rfl, rfl, rfl, rfl, by decide⟩
  have hmeaning : draft.lookup.meaning? "bool" "bool" (some 0) = some bool := by
    subst draft s bool env
    rfl
  have hbound : draft.bindType (.ofName "bool") = .ok _ :=
    Lookup.bindType_of_meaning? rfl rfl rfl hmeaning
  have hresolves : Resolves draft turn := by
    refine ⟨.inl (by decide), fun p hp => ?_⟩
    obtain rfl := List.mem_singleton.mp hp
    exact ⟨by decide, _, hbound⟩
  have hscreen : screen? s.db env.config.skipDeprecated turn (some (s.store.get 0)) = none := by
    subst turn s bool env
    rfl
  obtain ⟨f, g, hf, hg, -, -, hdefaults⟩ := defaults_agree_iff hlive hsame hresolves hscreen
  obtain ⟨t, x, y, ht, hx, hy, -, -, hagree⟩ := hdefaults 0 _ rfl
  obtain rfl := Except.ok.inj (hbound.symm.trans ht)
  refine ⟨hlive, hsame, hresolves, hscreen, f, g, x, y, hf, hg, hx, hy, hagree.mpr ?_⟩
  rw [show s.db.modsFor (s.store.get 0).entry g.signature = [] from rfl, if_neg (by decide)]
  exact fun _ => by decide +kernel

/-- Two functions that the header declares and the rules add as well, and a modification that
removes the default of one of them. -/
def switchRules : Database :=
  let function (name arg type default : String) : AddedFunction := {
    name
    args := [⟨arg, .ofName type, some default⟩]
    returnType := .ofName "void"
    isConst := false }
  let (_, db) := Database.initial.add "bool" .primitive
  let (_, db) := db.add "int" .primitive
  let (switch, db) := db.add "Switch" (.complex .value {
    added := [function "turn" "on" "bool" "1", function "wait" "seconds" "int" "5"] })
  db.addMod switch {
    target := .signature "wait(int)", args := [{ index := 1, removesDefault := true }] }

def switchHeader : Header where
  global.classes := [{
    decls := {
      name := "Switch"
      functions := [
        { name := "turn"
          args := [{ name := "on", type := .ofName "bool", default? := some "1" }] },
        { name := "wait"
          args := [{ name := "seconds", type := .ofName "int", default? := some "5" }] }] } }]

/-- The header's defaults are put right and removed, those of the rules are not. -/
theorem switch_defaults_differ :
    ∃ m, (assemble .minimal switchHeader switchRules).result = .ok m ∧ ∃ c ∈ m.classes,
      (m.store.get c).qualifiedName = "Switch" ∧
      (m.store.get c).functions.map
          (fun f => (f.signature, f.has .added, f.args.map (·.default?))) =
        [("turn(bool)", false, [some "true"]), ("wait(int)", false, [none]),
          ("turn(bool)", true, [some "1"]), ("wait(int)", true, [some "5"])] := by
  obtain ⟨m, hm, hswitch⟩ := exists_model_of_any (p := fun m => m.classes.any fun c =>
    decide ((m.store.get c).qualifiedName = "Switch") &&
    decide ((m.store.get c).functions.map
      (fun f => (f.signature, f.has .added, f.args.map (·.default?))) =
        [("turn(bool)", false, [some "true"]), ("wait(int)", false, [none]),
          ("turn(bool)", true, [some "1"]), ("wait(int)", true, [some "5"])]))
    (show (assemble .minimal switchHeader switchRules).result.toOption.any _ = true by
      decide +kernel)
  simp only [List.any_eq_true, Bool.and_eq_true, decide_eq_true_eq] at hswitch
  exact ⟨m, hm, hswitch⟩

end Assembly
end BindingModel
