import BindingModel.Proofs.Assembly.FreeOperators
import BindingModel.Proofs.Lookup.UsedNames

/-! In which scope the types of free operators are bound: not in the global one that declares them,
but inside the class of an operand. -/
namespace BindingModel.Assembly
open Api Header

/-! ### Where types are bound -/

/-- The types that the function has kept of the operator are bound inside the class. A reverse
operator keeps the arguments from the first on, any other those from the second on. -/
structure BoundInside (l : Lookup) (c : ClassId) (d : FunctionDecl) (f : Function) : Prop where
  returned : Draft.Returns ⟨l, [], some c⟩ d f.returnType?
  kept : ∀ i x, f.args[i]? = some x →
    (∃ p, d.args[if f.has .reverseOperator then i else i + 1]? = some p ∧
      Draft.Types ⟨l, [], some c⟩ p.type x.type) ∨ Draft.IsVarargs ⟨l, [], some c⟩ d x

/-- They are what the operator's types are bound to globally, up to what is marked as an array. -/
structure BoundGlobally (l : Lookup) (d : FunctionDecl) (f : Function) : Prop where
  returned : ∀ t, f.returnType? = some t → l.bindType d.returnType none [] = .ok t
  kept : ∀ i x, f.args[i]? = some x →
    (∃ p t, d.args[if f.has .reverseOperator then i else i + 1]? = some p ∧
      l.bindType p.type none [] = .ok t ∧ t.Marked x.type) ∨ d.specifiers.has .variadic = true

/-- Inside the class, every name in the declared types means what it means globally. -/
def KeepsMeaning (l : Lookup) (c : ClassId) (d : FunctionDecl) : Prop :=
  ∀ t, t = d.returnType ∨ (∃ p ∈ d.args, p.type = t) → l.SameNames (some c) none [] t

theorem BoundInside.globally {l : Lookup} {c : ClassId} {d : FunctionDecl} {f : Function}
    (h : BoundInside l c d f) (hsame : KeepsMeaning l c d) : BoundGlobally l d f := by
  constructor
  · intro t ht
    have hreturned := h.returned
    unfold Draft.Returns at hreturned
    split at hreturned
    · obtain ⟨u, hu, hreturn⟩ := hreturned
      obtain rfl := Option.some.inj (ht.symm.trans hreturn)
      rw [← Lookup.bindType_congr (hsame _ (.inl rfl))]
      exact hu
    · cases ht.symm.trans hreturned
  · intro i x hx
    rcases h.kept i x hx with ⟨p, hp, htypes⟩ | hvarargs
    · obtain ⟨t, ht, hmarked⟩ := htypes.marked
      refine .inl ⟨p, t, hp, ?_, hmarked⟩
      rw [← Lookup.bindType_congr (hsame _ (.inr ⟨p, List.mem_of_getElem? hp, rfl⟩))]
      exact ht
    · exact .inr hvarargs.1

/-- An operand's class is where the types of the function are bound. -/
def FromOperator (env : Env) (s : State) (d : FunctionDecl) (f : Function) : Prop :=
  ∃ c, (∃ p ∈ d.args, classOfArgument? env s p = some c) ∧ BoundInside (s.lookup env) c d f

/-! ### One operator -/

section
variable {env : Env} {s : State} {d : FunctionDecl} {a b : ArgumentDecl} {c : ClassId}
  {f g : Function} {i k : Nat} {x : Argument}

theorem returnType?_editFunctions (mods : List FunctionMod) (f : Function) :
    (editFunctions mods f).returnType? = f.returnType? :=
  List.foldlRecOn (motive := fun g : Function => g.returnType? = f.returnType?) mods editFunction
    rfl fun _ hg _ _ => hg

theorem getElem?_reindex (args : List Argument) (i : Nat) :
    (reindex args)[i]? = args[i]?.map fun x => { x with index := i } := by
  unfold reindex
  rw [List.getElem?_mapIdx]

/-- A function that keeps the return type, and arguments from a position on, is bound inside the
class as the one that is made there. -/
theorem boundInside_of_judge (hlive : s.store.isLive c = true)
    (hg : (s.judge env ⟨some c, []⟩ d).1 = .built g) (hreturn : f.returnType? = g.returnType?)
    (hargs : ∀ i x, f.args[i]? = some x → ∃ y,
      g.args[if f.has .reverseOperator then i else i + 1]? = some y ∧ x.type = y.type) :
    BoundInside (s.lookup env) c d f := by
  let draft : Draft := ⟨s.lookup env, [], some c⟩
  have hbuilt : (draft.judge env.config.skipDeprecated d).1 = .built g :=
    (judge_fst s env ⟨some c, []⟩ d).symm.trans hg
  refine ⟨hreturn ▸ Draft.judge_returns hbuilt, fun i x hx => ?_⟩
  obtain ⟨y, hy, htype⟩ := hargs i x hx
  rcases Draft.judge_arguments rfl hlive hbuilt hy with ⟨p, hp, htypes⟩ | ⟨hvariadic, hentry⟩
  · exact .inl ⟨p, hp, htype ▸ htypes⟩
  · exact .inr ⟨hvariadic, htype ▸ hentry⟩

theorem boundInside_operatorMember (hlive : s.store.isLive c = true)
    (hg : (s.judge env ⟨some c, []⟩ d).1 = .built g) (mods : List FunctionMod)
    (first unary : Bool) :
    BoundInside (s.lookup env) c d (editFunctions mods (operatorMember first unary g)) := by
  refine boundInside_of_judge hlive hg (returnType?_editFunctions mods _) fun i x hx => ?_
  rw [(SameMaking.editFunctions mods _).args] at hx
  have hx : (reindex (if first then g.args.tail else g.args.dropLast))[i]? = some x := hx
  rw [getElem?_reindex] at hx
  obtain ⟨y, hy, rfl⟩ := Option.map_eq_some_iff.mp hx
  refine ⟨y, ?_, rfl⟩
  rw [has_operatorMember hg mods first unary]
  cases first
  · rw [if_neg (by simp), List.getElem?_dropLast] at hy
    split at hy
    · simpa using hy
    · cases hy
  · simpa using hy

/-- The function that a stream operator becomes in the stream, or else in the streamed class. -/
def streamMember (inStream : Bool) (home : ClassId) (first second : Argument) (g : Function) :
    Function :=
  Function.setOwner { g with
    kind := .globalScope
    visibility := .pub
    args := reindex (if inStream then [second] else [first])
    attrs := (g.attrs.insertIf (!inStream) .reverseOperator).insert .finalInTargetLang } home

/-- A stream operator changes no class, or a function is made of it inside the streamed class. -/
theorem store_addStreamOperator_cases (env : Env) (s : State) (d : FunctionDecl) :
    (addStreamOperator env s d).store = s.store ∨
      ∃ p ∈ d.args, ∃ streamed g first second inStream home mods,
        classOfArgument? env s p = some streamed ∧
        (s.judge env ⟨some streamed, []⟩ d).1 = .built g ∧ g.args = [first, second] ∧
        (addStreamOperator env s d).store = s.store.modify home
          (·.addFunction (editFunctions mods (streamMember inStream home first second g))) := by
  unfold addStreamOperator
  split
  · next a b haccess hargs =>
    split
    · next stream streamed hstream hstreamed =>
      split
      · exact .inl rfl
      · have hstore := store_judge s env ⟨some streamed, []⟩ d
        cases hjudge : s.judge env ⟨some streamed, []⟩ d with
        | mk verdict t =>
          rw [hjudge] at hstore
          have hstore : t.store = s.store := hstore
          cases verdict with
          | built g =>
            dsimp only
            split
            · next first second hpair =>
              let inStream := t.db.generates (t.store.get stream).entry
              let home := if inStream then stream else streamed
              refine .inr ⟨b, by simp [hargs], streamed, g, first, second, inStream, home,
                t.store.modsOf t.db (streamMember inStream home first second g), hstreamed,
                by rw [hjudge], hpair, ?_⟩
              rw [← hstore]
              rfl
            · exact .inl hstore
          | ignored => exact .inl hstore
          | rejected => exact .inl hstore
    · exact .inl rfl
  · exact .inl rfl

theorem boundInside_streamMember (hlive : s.store.isLive c = true)
    (hg : (s.judge env ⟨some c, []⟩ d).1 = .built g) {y z : Argument} (hpair : g.args = [y, z])
    (mods : List FunctionMod) (inStream : Bool) (home : ClassId) :
    BoundInside (s.lookup env) c d (editFunctions mods (streamMember inStream home y z g)) := by
  refine boundInside_of_judge hlive hg (returnType?_editFunctions mods _) fun i x hx => ?_
  have hreverse : (editFunctions mods (streamMember inStream home y z g)).has .reverseOperator =
      !inStream := by
    rw [has_editFunctions mods _ (by decide) (by decide)]
    have hplain : g.attrs.has .reverseOperator = false := has_of_judge hg (.inl rfl)
    show ((g.attrs.insertIf _ _).insert _).has _ = _
    simp [FlagSet.has_insertIf, FlagSet.has_insert, hplain]
  rw [(SameMaking.editFunctions mods _).args] at hx
  have hx : (reindex (if inStream then [z] else [y]))[i]? = some x := hx
  rw [getElem?_reindex] at hx
  obtain ⟨w, hw, rfl⟩ := Option.map_eq_some_iff.mp hx
  refine ⟨w, ?_, rfl⟩
  rw [hreverse, hpair]
  cases inStream <;> cases i <;> simp_all

end

/-! ### All operators -/

/-- The second state has the classes of the first one, and some of them more functions. -/
structure TakesIn (P : Function → Prop) (s t : State) : Prop where
  quiet : Quiet s t
  surroundings : ∀ i, SameSurroundings i s t
  functions : ∀ c, ∃ fs, (t.store.get c).functions = (s.store.get c).functions ++ fs ∧
    ∀ f ∈ fs, P f

namespace TakesIn
variable {P Q : Function → Prop} {s t u : State}

theorem refl (s : State) : TakesIn P s s :=
  ⟨.refl s, fun _ => .refl s, fun _ => ⟨[], by simp, by simp⟩⟩

theorem trans (h : TakesIn P s t) (k : TakesIn P t u) : TakesIn P s u := by
  refine ⟨h.quiet.trans k.quiet, fun i => (h.surroundings i).trans (k.surroundings i), fun c => ?_⟩
  obtain ⟨fs, hfs, hP⟩ := h.functions c
  obtain ⟨gs, hgs, hQ⟩ := k.functions c
  refine ⟨fs ++ gs, ?_, fun f hf => ?_⟩
  · rw [hgs, hfs, List.append_assoc]
  · rcases List.mem_append.mp hf with hf | hf
    · exact hP f hf
    · exact hQ f hf

theorem mono (h : TakesIn P s t) (hPQ : ∀ f, P f → Q f) : TakesIn Q s t := by
  refine ⟨h.quiet, h.surroundings, fun c => ?_⟩
  obtain ⟨fs, hfs, hP⟩ := h.functions c
  exact ⟨fs, hfs, fun f hf => hPQ f (hP f hf)⟩

/-- A step that changes no class, or gives one function to one class. -/
theorem of_store (hquiet : Quiet s t) (hsame : ∀ i, SameSurroundings i s t)
    (h : t.store = s.store ∨
      ∃ c f, t.store = s.store.modify c (·.addFunction f) ∧ P f) : TakesIn P s t := by
  refine ⟨hquiet, hsame, fun j => ?_⟩
  rcases h with hstore | ⟨c, f, hstore, hf⟩
  · exact ⟨[], by simp [hstore], by simp⟩
  · rw [hstore, ClassStore.get_modify]
    split
    · exact ⟨[f], rfl, by simpa using hf⟩
    · exact ⟨[], by simp, by simp⟩

end TakesIn

/-- What stands for an operator does so in every state with the same surroundings. -/
theorem FromOperator.congr {env : Env} {s t : State} {d : FunctionDecl} {f : Function}
    (hquiet : Quiet s t) (hsame : ∀ i, SameSurroundings i s t) (h : FromOperator env t d f) :
    FromOperator env s d f := by
  obtain ⟨c, ⟨p, hp, hclass⟩, hbound⟩ := h
  have hagrees := (hsame c).draft env []
  have hclasses : s.classOf? = t.classOf? := by
    have hfiling := hquiet.filing
    have hentry := fun j => (hsame c).entry j
    unfold State.classOf? Registry.classOf?
    funext e
    rw [(hsame c).registry, show t.templates = s.templates from congrArg Filing.templates hfiling,
      show t.smartPointers = s.smartPointers from congrArg Filing.smartPointers hfiling]
    simp only [hentry]
  refine ⟨c, ⟨p, hp, ?_⟩, hagrees.returns hbound.returned, fun i x hx => ?_⟩
  · unfold classOfArgument? at hclass ⊢
    rw [hagrees.lookup.bindType, hclasses]
    exact hclass
  · rcases hbound.kept i x hx with ⟨p, hp, htypes⟩ | hvarargs
    · exact .inl ⟨p, hp, hagrees.types htypes⟩
    · exact .inr (hagrees.isVarargs hvarargs)

section
variable (env : Env) {s t : State} {d : FunctionDecl}

theorem addOperator_surroundings (s : State) (d : FunctionDecl) (i : ClassId) :
    SameSurroundings i s (addOperator env s d) := by
  unfold addOperator
  split
  · exact .refl s
  · split
    · exact .refl s
    · next home first _ =>
      have hjudge := judge_surroundings i s env ⟨some home, []⟩ d
      split
      · next f t ht =>
        rw [ht] at hjudge
        split
        · exact hjudge
        · exact hjudge.trans (.modifyClass t home fun _ => ⟨rfl, rfl, rfl, rfl⟩)
      · next t _ ht =>
        rwa [ht] at hjudge

theorem addStreamOperator_surroundings (s : State) (d : FunctionDecl) (i : ClassId) :
    SameSurroundings i s (addStreamOperator env s d) := by
  unfold addStreamOperator
  split
  · split
    · next streamed _ _ =>
      have hjudge := judge_surroundings i s env ⟨some streamed, []⟩ d
      split
      · exact .refl s
      · split
        · next f t ht =>
          rw [ht] at hjudge
          split
          · exact hjudge.trans (.modifyClass t _ fun _ => ⟨rfl, rfl, rfl, rfl⟩)
          · exact hjudge
        · next t _ ht =>
          rwa [ht] at hjudge
    · exact .refl s
  · exact .refl s

theorem addOperator_takesIn (hlive : s.Live) (d : FunctionDecl) :
    TakesIn (FromOperator env s d) s (addOperator env s d) := by
  refine .of_store (addOperator_quiet env s d) (addOperator_surroundings env s d) ?_
  rcases store_addOperator_cases env s d with hsame | ⟨c, first, g, haccess, hhome, hg, hne⟩
  · exact .inl hsame
  · obtain ⟨mods, hstore⟩ := (store_addOperator_of_home haccess hhome).1 g hg hne
    obtain ⟨p, hp, hclass⟩ := exists_operand_of_operatorHome? hhome
    exact .inr ⟨c, _, hstore, c, ⟨p, hp, hclass⟩,
      boundInside_operatorMember (hlive c (mem_filed_of_classOfArgument? hclass)) hg mods _ _⟩

theorem addStreamOperator_takesIn (hlive : s.Live) (d : FunctionDecl) :
    TakesIn (FromOperator env s d) s (addStreamOperator env s d) := by
  refine .of_store (addStreamOperator_quiet env s d) (addStreamOperator_surroundings env s d) ?_
  rcases store_addStreamOperator_cases env s d with
    hsame | ⟨p, hp, c, g, first, second, inStream, home, mods, hclass, hg, hpair, hstore⟩
  · exact .inl hsame
  · exact .inr ⟨home, _, hstore, c, ⟨p, hp, hclass⟩,
      boundInside_streamMember (hlive c (mem_filed_of_classOfArgument? hclass)) hg hpair mods _ _⟩

/-- Taking up operators one after another, each of them in the same surroundings. -/
theorem TakesIn.foldl {take : State → FunctionDecl → State}
    (htake : ∀ {s : State}, s.Live → ∀ d, TakesIn (FromOperator env s d) s (take s d))
    (hlive : s.Live) (l : List FunctionDecl) :
    TakesIn (fun f => ∃ d ∈ l, FromOperator env s d f) s (l.foldl take s) := by
  refine List.foldlRecOn (motive := fun t =>
    TakesIn (fun f => ∃ d ∈ l, FromOperator env s d f) s t) l take (.refl s) fun t ht d hd => ?_
  refine ht.trans ((htake (hlive.of_quiet ht.quiet) d).mono fun f hf => ⟨d, hd, ?_⟩)
  exact hf.congr ht.quiet ht.surroundings

/-- The operators that are taken up. -/
def freeOperators (env : Env) : List FunctionDecl :=
  operatorsNamed env.header.global.decls (binaryOperators ++ streamOperators)

theorem addOperators_takesIn (hlive : s.Live) :
    TakesIn (fun f => ∃ d ∈ freeOperators env, FromOperator env s d f) s (addOperators env s) := by
  have hsplit : freeOperators env = operatorsNamed env.header.global.decls binaryOperators ++
      operatorsNamed env.header.global.decls streamOperators := List.flatMap_append
  have hbinary := TakesIn.foldl env (addOperator_takesIn env) hlive
    (operatorsNamed env.header.global.decls binaryOperators)
  have hstream := TakesIn.foldl env (addStreamOperator_takesIn env) (hlive.of_quiet hbinary.quiet)
    (operatorsNamed env.header.global.decls streamOperators)
  rw [hsplit]
  refine .trans (hbinary.mono ?_) (hstream.mono ?_)
  · rintro f ⟨d, hd, hf⟩
    exact ⟨d, List.mem_append_left _ hd, hf⟩
  · rintro f ⟨d, hd, hf⟩
    exact ⟨d, List.mem_append_right _ hd, hf.congr hbinary.quiet hbinary.surroundings⟩

end

/-- The functions that classes get from free operators have the types that their declarations have
inside the class of an operand. These are the global ones if every name in them means the same
there as globally; and a name that means something in both is the same type exactly if it means the
same. -/
theorem operators_bound_inside (env : Env) {s : State} (hlive : s.Live) (c : ClassId) :
    let l := s.lookup env
    ∃ fs, ((addOperators env s).store.get c).functions = (s.store.get c).functions ++ fs ∧
      ∀ f ∈ fs, ∃ d ∈ freeOperators env, ∃ k,
        (∃ p ∈ d.args, classOfArgument? env s p = some k) ∧ BoundInside l k d f ∧
        (KeepsMeaning l k d → BoundGlobally l d f) ∧
        ∀ t e e', t.args = [] → t.dims = [] → t.params? = none →
          l.meaning? t.qualifiedName t.localName (some k) = some e →
          l.meaning? t.qualifiedName t.localName none = some e' →
          (l.bindType t (some k) [] = l.bindType t none [] ↔ e = e') := by
  intro l
  obtain ⟨fs, hfs, hfrom⟩ := (addOperators_takesIn env hlive).functions c
  refine ⟨fs, hfs, fun f hf => ?_⟩
  obtain ⟨d, hd, k, hoperand, hbound⟩ := hfrom f hf
  exact ⟨d, hd, k, hoperand, hbound, hbound.globally, fun t e e' hargs hdims hparams he he' =>
    Lookup.bindType_eq_iff hargs hdims hparams he he'⟩

/-- `Matrix`, the class `Vector` inside it and a global one, and the type `double`. -/
def vectorState : State where
  db := {
    entries := [⟨some 0, "double", .primitive⟩, ⟨some 1, "Matrix", .complex .value {}⟩,
      ⟨some 2, "Matrix::Vector", .complex .value {}⟩, ⟨some 3, "Vector", .complex .value {}⟩] }
  store := {
    classes := #[{ entry := ⟨some 1, "Matrix", .complex .value {}⟩, inner := [1] },
      { entry := ⟨some 2, "Matrix::Vector", .complex .value {}⟩, enclosing? := some 0 },
      { entry := ⟨some 3, "Vector", .complex .value {}⟩ }] }
  registry := { members := [0, 1, 2] }

theorem live_vectorState : vectorState.Live := by
  unfold State.Live
  decide +kernel

/-- `Matrix operator*(const Matrix& m, T x)`. -/
def productBy (x : TypeExpr) : FunctionDecl where
  name := "operator*"
  returnType := .ofName "Matrix"
  args := [
    { name := "m", type := { name := ["Matrix"], isConst := true, ref := .lvalue } },
    { name := "x", type := x }]

theorem operators_bound_inside_double :
    let product := productBy (.ofName "double")
    let env : Env := .make {} { global := { decls := { functions := [product] } } }
    vectorState.Live ∧ ∃ f, ((addOperators env vectorState).store.get 0).functions = [f] ∧
      BoundGlobally (vectorState.lookup env) product f := by
  intro product env
  refine ⟨live_vectorState, ?_⟩
  obtain ⟨fs, hfs, hfrom⟩ := operators_bound_inside env live_vectorState 0
  have hone : ((addOperators env vectorState).store.get 0).functions.length = 1 := by
    decide +kernel
  have hbefore : (vectorState.store.get 0).functions = [] := rfl
  rw [hbefore, List.nil_append] at hfs
  obtain ⟨f, hf⟩ := List.length_eq_one_iff.mp hone
  refine ⟨f, hf, ?_⟩
  obtain ⟨d, hd, k, ⟨p, hp, hclass⟩, -, hglobally, -⟩ := hfrom f (by rw [← hfs, hf]; simp)
  have hoperators : freeOperators env = [product] := by with_unfolding_all rfl
  obtain rfl : d = product := by simpa [hoperators] using hd
  obtain rfl : k = 0 := by
    have hmatrix : classOfArgument? env vectorState
        { name := "m", type := { name := ["Matrix"], isConst := true, ref := .lvalue } } =
          some 0 := by decide +kernel
    have hdouble : classOfArgument? env vectorState
        { name := "x", type := .ofName "double" } = none := by decide +kernel
    rcases List.mem_pair.mp hp with rfl | rfl
    · exact Option.some.inj (hclass.symm.trans hmatrix)
    · cases hclass.symm.trans hdouble
  have hsame : ∀ t : TypeExpr, t.args = [] → t.dims = [] → env.header.expand? [] t = none →
      ((vectorState.lookup env).findInClass? t.qualifiedName 0).isNone = true →
      (vectorState.lookup env).SameNames (some 0) none [] t := by
    intro t hargs hdims hexpand hname
    refine Lookup.sameNames_of_plain hargs hdims (fun header hheader => ?_)
      (Lookup.meaning?_of_findInClass?_eq_none _ (Option.isNone_iff_eq_none.mp hname) rfl)
    obtain rfl := Option.some.inj hheader
    exact Header.expand?_eq_none_iff.mp hexpand
  refine hglobally fun t ht => ?_
  rcases ht with rfl | ⟨q, hq, rfl⟩
  · exact hsame _ rfl rfl rfl (by decide +kernel)
  · rcases List.mem_pair.mp hq with rfl | rfl
    · exact hsame _ rfl rfl rfl (by decide +kernel)
    · exact hsame _ rfl rfl rfl (by decide +kernel)

/-- A free operator on the global `Vector` takes the one inside `Matrix` once it is there. -/
theorem operand_taken_for_inner_class :
    let vector : TypeExpr := { name := ["Vector"], isConst := true, ref := .lvalue }
    let env : Env := .make {} { global := { decls := { functions := [productBy vector] } } }
    ((addOperators env vectorState).store.get 0).functions.map
        (fun f => (f.name, f.args.map (·.type.entry.name))) = [("operator*", ["Matrix::Vector"])] ∧
      ∃ t, (vectorState.lookup env).bindType vector none [] = .ok t ∧ t.entry.name = "Vector" := by
  intro vector env
  exact ⟨by decide +kernel, _, by with_unfolding_all rfl, rfl⟩

end BindingModel.Assembly
