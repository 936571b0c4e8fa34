import BindingModel.Proofs.Assembly.OperatorMarks
import BindingModel.Proofs.Assembly.Shelves
import BindingModel.Proofs.Assembly.Stages
import BindingModel.Proofs.Assembly.Verdicts

/-! Where free operators go: into the class of one operand, with the other one as their argument. -/
namespace BindingModel.Assembly
open Api Header

/-! ### Classes that are filed -/

/-- The classes that can be found are alive. -/
def State.Live (s : State) : Prop := ∀ c ∈ s.filed, s.store.isLive c = true

theorem State.Live.lt_size {s : State} (h : s.Live) {c : ClassId} (hc : c ∈ s.filed) :
    c < s.store.classes.size := by
  have hlive := h c hc
  unfold ClassStore.isLive at hlive
  exact of_decide_eq_true (Bool.and_eq_true_iff.mp hlive).1

theorem Pending.live {s : State} (h : Pending [] s) : s.Live := by
  intro c hc
  have hlt := h.lt_size hc
  simp [ClassStore.isLive, h.released, hlt]

theorem State.Live.of_filed {s t : State} (h : s.Live) (hfiled : t.filed = s.filed)
    (hsize : t.store.classes.size = s.store.classes.size)
    (hreleased : t.store.released = s.store.released) : t.Live := by
  intro c hc
  have hlive : t.store.isLive c = s.store.isLive c := by
    unfold ClassStore.isLive
    rw [hsize, hreleased]
  exact hlive.trans (h c (hfiled ▸ hc))

theorem State.Live.of_quiet {s t : State} (h : s.Live) (hq : Quiet s t) : t.Live :=
  h.of_filed (State.filed_eq_of_filing hq.filing) hq.size hq.released

theorem live_settleAll {env : Env} {db : Database} {t u : State}
    (hdeclare : declareAll env { db } = .ok () t) (hfill : fillAll env t = .ok () u) :
    (settleAll env u).Live := by
  have hpending := (declareAll_adds env { db } () t hdeclare).pending (Pending.initial db)
  have hsettled := (Settling.of_quiet ((fillAll_quiet env t).of_ok hfill)).trans
    (settleAll_settling env u)
  exact hpending.live.of_filed (Stocked.of_settling hsettled).filed hsettled.size hsettled.released

/-- Operators that were taken up before leave the classes alive. -/
theorem State.Live.addOperator {s : State} (h : s.Live) (env : Env) (l : List FunctionDecl) :
    (l.foldl (addOperator env) s).Live :=
  h.of_quiet (Quiet.foldl (addOperator_quiet env) l s)

/-! ### Operands -/

section
variable {env : Env} {s : State} {d : FunctionDecl} {a b : ArgumentDecl} {home : ClassId}
  {first : Bool}

theorem operatorHome?_of_second (hargs : d.args = [a, b]) (ha : classOfArgument? env s a = none)
    (hb : classOfArgument? env s b = some home) :
    operatorHome? env s d = some (home, false) := by
  unfold operatorHome?
  rw [hargs]
  simp only [ha, hb, Option.map_some]

/-! ### What is taken away -/

theorem has_attrsOf_of_operator (flags : FlagSet Specifier) {a : FunctionAttr}
    (ha : a = .reverseOperator ∨ a = .pointerOperator) : (attrsOf flags).has a = false := by
  unfold attrsOf
  simp only [FlagSet.has_insertIf]
  rcases ha with rfl | rfl <;> simp [FlagSet.has]

/-- No declaration is marked as an operator of another class. -/
theorem has_of_judge {c : ClassId} {g : Function} {a : FunctionAttr}
    (hg : (s.judge env ⟨some c, []⟩ d).1 = .built g)
    (ha : a = .reverseOperator ∨ a = .pointerOperator) : g.has a = false := by
  obtain ⟨-, returnType?, args, ws, -, -, rfl⟩ :=
    Draft.judge_eq_built_iff.mp ((judge_fst s env ⟨some c, []⟩ d).symm.trans hg)
  unfold Function.has
  rw [(Draft.finish_kept _ _).2.1]
  exact has_attrsOf_of_operator _ ha

theorem has_editFunctions (mods : List FunctionMod) (f : Function) {a : FunctionAttr}
    (hfinal : a ≠ .finalInTargetLang) (hdeprecated : a ≠ .deprecated) :
    (editFunctions mods f).has a = f.has a :=
  List.foldlRecOn (motive := fun g : Function => g.has a = f.has a) mods editFunction rfl
    fun g hg m _ => (has_editFunction g m hfinal hdeprecated).trans hg

/-- Of two arguments the object is taken away; the other one becomes the first. -/
theorem takeObject_pair {f : Function} {x y : Argument} (hargs : f.args = [x, y])
    (hpointer : f.has .pointerOperator = false) (first : Bool) :
    let g := takeObject first false f
    g.args = [{ (if first then y else x) with index := 0 }] ∧
      g.has .pointerOperator = decide (0 < (if first then x else y).type.pointers) := by
  unfold Function.has at hpointer ⊢
  unfold takeObject
  simp only [hargs, FlagSet.has_insertIf, hpointer]
  cases first <;> simp [reindex]

/-- The function that an operator becomes, up to the modifications of the operator as a whole. -/
def operatorMember (first unary : Bool) (g : Function) : Function :=
  { takeObject first unary g with kind := .normal, visibility := .pub }

theorem has_operatorMember {c : ClassId} {g : Function}
    (hg : (s.judge env ⟨some c, []⟩ d).1 = .built g) (mods : List FunctionMod)
    (first unary : Bool) :
    (editFunctions mods (operatorMember first unary g)).has .reverseOperator = !first := by
  rw [has_editFunctions mods _ (by decide) (by decide)]
  have hplain : g.attrs.has .reverseOperator = false := has_of_judge hg (.inl rfl)
  show ((g.attrs.insertIf _ _).insertIf _ _).has _ = _
  simp [FlagSet.has_insertIf, hplain]

/-- Where an operator has a home, that class gets what the operator is made into there, unless
nothing is. -/
theorem store_addOperator_of_home (haccess : d.access = .pub)
    (hhome : operatorHome? env s d = some (home, first)) :
    (∀ g, (s.judge env ⟨some home, []⟩ d).1 = .built g → g.args ≠ [] →
      ∃ mods, (addOperator env s d).store = s.store.modify home
        (·.addFunction (editFunctions mods (operatorMember first (d.args.length = 1) g)))) ∧
    ((∀ g, (s.judge env ⟨some home, []⟩ d).1 = .built g → g.args = []) →
      (addOperator env s d).store = s.store) := by
  have hstore := store_judge s env ⟨some home, []⟩ d
  unfold addOperator
  rw [if_neg (not_not.mpr haccess), hhome]
  cases hjudge : s.judge env ⟨some home, []⟩ d with
  | mk verdict t =>
    rw [hjudge] at hstore
    have hstore : t.store = s.store := hstore
    rw [← hstore]
    cases verdict with
    | built g =>
      refine ⟨fun g' hg hne => ?_, fun hnone => ?_⟩
      · obtain rfl := Verdict.built.inj hg
        simp only [hjudge]
        rw [if_neg (by simpa using hne)]
        exact ⟨_, rfl⟩
      · simp only [hjudge, hnone g rfl, List.isEmpty_nil, if_true]
    | ignored => exact ⟨fun _ hg => (by cases hg), fun _ => by simp only [hjudge]⟩
    | rejected => exact ⟨fun _ hg => (by cases hg), fun _ => by simp only [hjudge]⟩

/-- An operator changes no class, or it has a home where a function is made of it. -/
theorem store_addOperator_cases (env : Env) (s : State) (d : FunctionDecl) :
    (addOperator env s d).store = s.store ∨ ∃ home first g, d.access = .pub ∧
      operatorHome? env s d = some (home, first) ∧
      (s.judge env ⟨some home, []⟩ d).1 = .built g ∧ g.args ≠ [] := by
  by_cases haccess : d.access = .pub
  · cases hhome : operatorHome? env s d with
    | none =>
      refine .inl ?_
      unfold addOperator
      rw [if_neg (not_not.mpr haccess), hhome]
    | some r =>
      obtain ⟨home, first⟩ := r
      by_cases hnone : ∀ g, (s.judge env ⟨some home, []⟩ d).1 = .built g → g.args = []
      · exact .inl ((store_addOperator_of_home haccess hhome).2 hnone)
      · push Not at hnone
        obtain ⟨g, hg, hne⟩ := hnone
        exact .inr ⟨home, first, g, haccess, rfl, hg, hne⟩
  · refine .inl ?_
    unfold addOperator
    rw [if_pos haccess]

/-! ### Members -/

/-- The function stands for the operator inside the class of `object`: its only argument is what
`rest` becomes there. -/
structure MovedInto (env : Env) (s : State) (d : FunctionDecl) (c : ClassId)
    (object rest : ArgumentDecl) (f : Function) : Prop where
  home : classOfArgument? env s object = some c
  kept : ∃ g x, (s.judge env ⟨some c, []⟩ d).1 = .built g ∧ x ∈ g.args ∧
    f.args = [{ x with index := 0 }] ∧ Draft.Types ⟨s.lookup env, [], some c⟩ rest.type x.type
  pointer : ∃ t, (s.lookup env).bindType object.type (some c) [] = .ok t ∧
    (f.has .pointerOperator = true ↔ 0 < t.pointers)

/-- What an operator is made into in a live class has two arguments, those that its parameters
give. -/
theorem judge_pair (hhome : s.store.isLive home = true) (hargs : d.args = [a, b])
    (ha : a.default? = none) (hb : b.default? = none)
    (hvariadic : d.specifiers.has .variadic = false) {g : Function}
    (hg : (s.judge env ⟨some home, []⟩ d).1 = .built g) :
    ∃ x y, g.args = [x, y] ∧ Draft.Types ⟨s.lookup env, [], some home⟩ a.type x.type ∧
      Draft.Types ⟨s.lookup env, [], some home⟩ b.type y.type := by
  let draft : Draft := ⟨s.lookup env, [], some home⟩
  have hbuilt : (draft.judge env.config.skipDeprecated d).1 = .built g :=
    (judge_fst s env ⟨some home, []⟩ d).symm.trans hg
  have hparameters : Draft.parameters d = [a, b] := by
    unfold Draft.parameters
    rw [hargs]
    exact if_neg fun h => Nat.succ_ne_self 1 h.1
  have hlength : g.args.length = 2 := by
    rw [Draft.judge_length rfl hbuilt hvariadic, hparameters]
    · rfl
    · rw [hparameters]
      simp [ha, hb]
  obtain ⟨x, y, hxy⟩ := List.length_eq_two.mp hlength
  have htypes : ∀ {k : Nat} {p : ArgumentDecl} {z : Argument}, g.args[k]? = some z →
      d.args[k]? = some p → draft.Types p.type z.type := by
    intro k p z hz hp
    rcases Draft.judge_arguments rfl hhome hbuilt hz with ⟨p', hp', htype⟩ | hvarargs
    · rwa [Option.some.inj (hp.symm.trans hp')]
    · exact absurd (hvariadic.symm.trans hvarargs.1) Bool.false_ne_true
  refine ⟨x, y, hxy, ?_, ?_⟩
  · exact htypes (k := 0) (by rw [hxy]; rfl) (by rw [hargs]; rfl)
  · exact htypes (k := 1) (by rw [hxy]; rfl) (by rw [hargs]; rfl)

theorem movedInto_operatorMember (hlive : s.Live) (hargs : d.args = [a, b])
    (ha : a.default? = none) (hb : b.default? = none)
    (hvariadic : d.specifiers.has .variadic = false)
    (hhome : operatorHome? env s d = some (home, first)) {g : Function}
    (hg : (s.judge env ⟨some home, []⟩ d).1 = .built g) (mods : List FunctionMod) :
    let f := editFunctions mods (operatorMember first (d.args.length = 1) g)
    MovedInto env s d home (if first then a else b) (if first then b else a) f ∧
      f.has .reverseOperator = !first := by
  intro f
  have hobject := operatorHome?_eq_some hargs hhome
  obtain ⟨x, y, hxy, hx, hy⟩ := judge_pair (hlive home (mem_filed_of_classOfArgument? hobject)) hargs
    ha hb hvariadic hg
  have hbinary : decide (d.args.length = 1) = false := by
    rw [hargs]
    rfl
  obtain ⟨hrest, hpointer⟩ := takeObject_pair hxy (has_of_judge hg (.inr rfl)) first
  have hfargs : f.args = [{ (if first then y else x) with index := 0 }] := by
    rw [(SameMaking.editFunctions mods _).args, hbinary]
    exact hrest
  have hfpointer : f.has .pointerOperator =
      decide (0 < (if first then x else y).type.pointers) := by
    rw [has_editFunctions mods _ (by decide) (by decide), hbinary]
    exact hpointer
  have hmem : (if first then y else x) ∈ g.args := by
    rw [hxy]
    cases first <;> simp
  have htypes : Draft.Types ⟨s.lookup env, [], some home⟩ (if first then b else a).type
        (if first then y else x).type ∧
      Draft.Types ⟨s.lookup env, [], some home⟩ (if first then a else b).type
        (if first then x else y).type := by
    cases first
    · exact ⟨hx, hy⟩
    · exact ⟨hy, hx⟩
  refine ⟨⟨hobject, ⟨g, _, hg, hmem, hfargs, htypes.1⟩, ?_⟩, has_operatorMember hg mods first _⟩
  obtain ⟨t, ht, hmarked⟩ := htypes.2.marked
  refine ⟨t, ht, ?_⟩
  rw [hfpointer, decide_eq_true_iff, hmarked.same.2]

/-- The function becomes one more of the class, and nothing else changes in the classes. -/
def AddsTo (env : Env) (s : State) (d : FunctionDecl) (c : ClassId) (f : Function) : Prop :=
  c < s.store.classes.size ∧ (addOperator env s d).store =
    s.store.modify c fun x => { x with functions := x.functions ++ [f] }

/-- An operator with two parameters changes no class or adds one function to the class of one of
them: the one that is the object. The other one becomes the only argument, bound in that class. The
operator is reverse exactly if the object is the second parameter, and works on a pointer exactly if
the type of the object has an indirection. -/
structure OperatorMoved (env : Env) (s : State) (d : FunctionDecl) (a b : ArgumentDecl) :
    Prop where
  store : (addOperator env s d).store = s.store ∨ ∃ c f, AddsTo env s d c f ∧
    (MovedInto env s d c a b f ∧ f.has .reverseOperator = false ∨
      MovedInto env s d c b a f ∧ f.has .reverseOperator = true)
  /-- Where only the second parameter has a class, the operator goes there if a function can be made
  of it. -/
  second : ∀ c g, classOfArgument? env s a = none → classOfArgument? env s b = some c →
    (s.judge env ⟨some c, []⟩ d).1 = .built g →
      ∃ f, AddsTo env s d c f ∧ MovedInto env s d c b a f ∧ f.has .reverseOperator = true

theorem operatorMoved_of_live (hlive : s.Live) (haccess : d.access = .pub) (hargs : d.args = [a, b])
    (ha : a.default? = none) (hb : b.default? = none)
    (hvariadic : d.specifiers.has .variadic = false) : OperatorMoved env s d a b := by
  have hadds : ∀ c first g, operatorHome? env s d = some (c, first) →
      (s.judge env ⟨some c, []⟩ d).1 = .built g → g.args ≠ [] →
      ∃ f, AddsTo env s d c f ∧
        MovedInto env s d c (if first then a else b) (if first then b else a) f ∧
        f.has .reverseOperator = !first := by
    intro c first g hhome hg hne
    obtain ⟨mods, hstore⟩ := (store_addOperator_of_home haccess hhome).1 g hg hne
    have hmoved := movedInto_operatorMember hlive hargs ha hb hvariadic hhome hg mods
    refine ⟨_, ⟨?_, hstore.trans ?_⟩, hmoved⟩
    · exact hlive.lt_size (mem_filed_of_classOfArgument? hmoved.1.home)
    · have hnormal : (editFunctions mods
          (operatorMember first (d.args.length = 1) g)).kind = .normal :=
        (SameMaking.editFunctions mods _).kind
      congr 1
      funext x
      unfold BoundClass.addFunction
      simp [Function.isConstructor, hnormal]
  refine ⟨?_, fun c g hnone hsome hg => ?_⟩
  · rcases store_addOperator_cases env s d with hsame | ⟨c, first, g, -, hhome, hg, hne⟩
    · exact .inl hsame
    · obtain ⟨f, hf, hmoved, hreverse⟩ := hadds c first g hhome hg hne
      refine .inr ⟨c, f, hf, ?_⟩
      cases first
      · exact .inr ⟨hmoved, hreverse⟩
      · exact .inl ⟨hmoved, hreverse⟩
  · have hhome := operatorHome?_of_second hargs hnone hsome
    refine hadds c false g hhome hg fun hempty => ?_
    have hmoved := movedInto_operatorMember hlive hargs ha hb hvariadic hhome hg []
    obtain ⟨g', x, hg', hx, -⟩ := hmoved.1.kept
    obtain rfl := Verdict.built.inj (hg.symm.trans hg')
    rw [hempty] at hx
    cases hx

/-- A public operator with two parameters, none of them with a default, is moved into the class of
one of them in every state whose classes are alive, so in every assembly, whenever it is taken
up. -/
theorem operator_moved (env : Env) {d : FunctionDecl} {a b : ArgumentDecl} (haccess : d.access = .pub)
    (hargs : d.args = [a, b]) (ha : a.default? = none) (hb : b.default? = none)
    (hvariadic : d.specifiers.has .variadic = false) :
    (∀ s : State, s.Live → OperatorMoved env s d a b) ∧
    ∀ db t u, declareAll env { db } = .ok () t → fillAll env t = .ok () u →
      ∃ s, complete env u = checkMods (addOperators env s) ∧ ∀ before after,
        operatorsNamed env.header.global.decls binaryOperators = before ++ d :: after →
          OperatorMoved env (before.foldl (addOperator env) s) d a b := by
  have hmoved : ∀ s : State, s.Live → OperatorMoved env s d a b :=
    fun s hlive => operatorMoved_of_live hlive haccess hargs ha hb hvariadic
  refine ⟨hmoved, fun db t u hdeclare hfill => ?_⟩
  obtain ⟨s, hquiet, heq⟩ := complete_eq env u
  have hlive : s.Live := (live_settleAll hdeclare hfill).of_quiet hquiet
  exact ⟨s, heq, fun before _ _ => hmoved _ (hlive.addOperator env before)⟩

end

/-- Rules for a class `Matrix` and the type `double`. -/
def matrixRules : Database := ((Database.initial.add "double" .primitive).2.add "Matrix"
  (.complex .value {})).2

/-- The class was declared. -/
def matrixState : State where
  db := matrixRules
  store := { classes := #[{ entry := ⟨some 3, "Matrix", .complex .value {}⟩ }] }
  registry := { members := [0] }

theorem operator_moved_scale :
    let factor : ArgumentDecl := { name := "factor", type := .ofName "double" }
    let matrix : ArgumentDecl := {
      name := "m", type := { name := ["Matrix"], isConst := true, ref := .lvalue } }
    let scale : FunctionDecl := {
      name := "operator*", returnType := .ofName "Matrix", args := [factor, matrix] }
    let env : Env := .make {} { global := {
      decls := { functions := [scale] }, classes := [{ decls := { name := "Matrix" } }] } }
    scale.access = .pub ∧ scale.args = [factor, matrix] ∧
      factor.default? = none ∧ matrix.default? = none ∧ scale.specifiers.has .variadic = false ∧
      matrixState.Live ∧
      (∃ f, MovedInto env matrixState scale 0 matrix factor f ∧ f.has .reverseOperator = true ∧
        (addOperator env matrixState scale).store =
          matrixState.store.modify 0 fun c => { c with functions := c.functions ++ [f] }) ∧
      ∃ t u s, declareAll env { db := matrixRules } = .ok () t ∧ fillAll env t = .ok () u ∧
        complete env u = checkMods (addOperators env s) ∧
        operatorsNamed env.header.global.decls binaryOperators = [scale] ∧
        OperatorMoved env s scale factor matrix := by
  intro factor matrix scale env
  have hlive : matrixState.Live := by
    intro c hc
    obtain rfl : c = 0 := List.mem_singleton.mp hc
    rfl
  obtain ⟨hmoved, hbuild⟩ := operator_moved env (d := scale) rfl rfl rfl rfl rfl
  refine ⟨rfl, rfl, rfl, rfl, rfl, hlive, ?_, ?_⟩
  · obtain ⟨g, hg⟩ : ∃ g, (matrixState.judge env ⟨some 0, []⟩ scale).1 = .built g := by
      subst env scale factor matrix
      exact ⟨_, by with_unfolding_all rfl⟩
    obtain ⟨f, ⟨-, hstore⟩, hinto, hreverse⟩ := (hmoved matrixState hlive).second 0 g
      (by with_unfolding_all rfl) (by with_unfolding_all rfl) hg
    exact ⟨f, hinto, hreverse, hstore⟩
  · obtain ⟨t, u, ht, hu⟩ : ∃ t u, declareAll env { db := matrixRules } = .ok () t ∧
        fillAll env t = .ok () u := by
      subst env scale factor matrix
      exact ⟨_, _, by with_unfolding_all rfl, by with_unfolding_all rfl⟩
    have hoperators : operatorsNamed env.header.global.decls binaryOperators = [scale] := by
      with_unfolding_all rfl
    obtain ⟨s, hs, hall⟩ := hbuild matrixRules t u ht hu
    exact ⟨t, u, s, ht, hu, hs, hoperators, hall [] [] hoperators⟩

end BindingModel.Assembly
