import BindingModel.Proofs.Assembly.CopyMarks

/-! Free operators that become members of classes: the operands that they go to, and how often their
arguments are marked as arrays. -/
namespace BindingModel.Assembly
open Api Header

/-! ### Homes -/

theorem State.mem_filed_of_classOf? {s : State} {e : Entry} {c : ClassId}
    (h : s.classOf? e = some c) : c ∈ s.filed := by
  unfold State.classOf? Registry.classOf? at h
  unfold State.filed
  rw [List.append_assoc]
  rcases Option.or_eq_some_iff.mp h with hregistered | ⟨-, hother⟩
  · exact List.mem_append_left _ (List.mem_of_find?_eq_some hregistered)
  · exact List.mem_append_right _ (List.mem_of_find?_eq_some hother)

section
variable {env : Env} {s : State} {d : FunctionDecl} {a b : ArgumentDecl} {home : ClassId}
  {first : Bool}

theorem mem_filed_of_classOfArgument? (h : classOfArgument? env s a = some home) :
    home ∈ s.filed := by
  unfold classOfArgument? at h
  split at h
  · split at h
    · exact State.mem_filed_of_classOf? h
    · cases h
  · cases h

/-- The home is the class of the operand that is the object. -/
theorem operatorHome?_eq_some {rest : List ArgumentDecl} (hargs : d.args = a :: b :: rest)
    (h : operatorHome? env s d = some (home, first)) :
    classOfArgument? env s (if first then a else b) = some home := by
  have hsecond : ∀ {r}, (classOfArgument? env s b).map (fun c => (c, false)) = some r →
      r = (home, first) → classOfArgument? env s (if first then a else b) = some home := by
    rintro r hr rfl
    obtain ⟨c, hc, heq⟩ := Option.map_eq_some_iff.mp hr
    cases heq
    exact hc
  unfold operatorHome? at h
  rw [hargs] at h
  dsimp only at h
  split at h
  · next c hc =>
    split at h
    · split at h
      · next second other hother =>
        split at h
        · exact hsecond hother (Option.some.inj (hother.symm.trans h))
        · cases h
          exact hc
      · cases h
        exact hc
    · exact hsecond h rfl
  · exact hsecond h rfl

theorem exists_operand_of_operatorHome? (h : operatorHome? env s d = some (home, first)) :
    ∃ p ∈ d.args, classOfArgument? env s p = some home := by
  match hargs : d.args with
  | [] =>
    unfold operatorHome? at h
    rw [hargs] at h
    cases h
  | [p] =>
    unfold operatorHome? at h
    rw [hargs] at h
    obtain ⟨c, hc, heq⟩ := Option.map_eq_some_iff.mp h
    cases heq
    exact ⟨p, List.mem_singleton_self p, hc⟩
  | a :: b :: rest =>
    refine ⟨if first then a else b, ?_, operatorHome?_eq_some hargs h⟩
    cases first <;> simp

/-- An entry is found with a class that there is. -/
theorem lt_size_of_classOfArgument? (h : classOfArgument? env s a = some home) :
    home < s.store.classes.size := by
  by_contra hlt
  have hother : ∀ e : Entry, (s.store.get home).entry.same e = false := by
    intro e
    rw [s.store.get_of_size_le (Nat.not_lt.mp hlt)]
    rfl
  unfold classOfArgument? at h
  split at h
  · split at h
    · next t _ _ =>
      have hsame : (s.store.get home).entry.same t.entry = true := by
        unfold State.classOf? Registry.classOf? at h
        rcases Option.or_eq_some_iff.mp h with h | ⟨-, h⟩ <;>
          exact List.find?_some (p := fun i => (s.store.get i).entry.same t.entry) h
      rw [hother] at hsame
      cases hsame
    · cases h
  · cases h

end

/-! ### Operators -/

theorem isOperatorName_of_mem {name : String} (h : name ∈ binaryOperators ++ streamOperators) :
    isOperatorName name = true := by
  have hall : ∀ name ∈ binaryOperators ++ streamOperators, isOperatorName name = true := by
    decide
  exact hall name h

theorem declared_of_operatorsNamed {decls : Declarations} {names : List String}
    (hnames : names ⊆ binaryOperators ++ streamOperators) {d : FunctionDecl}
    (h : d ∈ operatorsNamed decls names) :
    d ∈ decls.functions ∧ isOperatorName d.name = true := by
  obtain ⟨name, hname, hd⟩ := List.mem_flatMap.mp h
  obtain ⟨hd, -⟩ := List.mem_filter.mp hd
  obtain ⟨hmem, heq⟩ := List.mem_filter.mp hd
  rw [beq_iff_eq] at heq
  exact ⟨hmem, heq ▸ isOperatorName_of_mem (hnames hname)⟩

namespace Draft
variable {d : Draft} {f : FunctionDecl} {g : Function}

theorem declaredName_judge {skipDeprecated : Bool} (h : (d.judge skipDeprecated f).1 = .built g) :
    g.declaredName = f.name := by
  have hfinish : ∀ g : Function, (d.finish g).1.declaredName = g.declaredName := by
    intro g
    unfold finish
    cases d.class? <;> rfl
  unfold judge at h
  split at h
  · next verdict hscreen =>
    obtain rfl : verdict = .built g := h
    exact absurd hscreen (screen?_ne_built _ _ f _ g)
  · unfold bind at h
    dsimp only at h
    split at h
    · cases h
    · split at h
      · cases h
      · cases h
        exact hfinish _

end Draft

/-- The arguments of an operator without the object, which is the first or the last one. -/
def withoutObject (objectFirst : Bool) (args : List Argument) : List Argument :=
  if objectFirst then args.tail else args.dropLast

theorem getElem?_withoutObject {objectFirst : Bool} {args : List Argument} {k : Nat} {a : Argument}
    (h : (withoutObject objectFirst args)[k]? = some a) :
    args[if objectFirst then k + 1 else k]? = some a := by
  unfold withoutObject at h
  cases objectFirst with
  | true => rwa [if_pos rfl, List.getElem?_tail] at h
  | false =>
    rw [if_neg Bool.false_ne_true, List.getElem?_dropLast] at h
    split at h
    · exact h
    · cases h

/-- A global function of the header comes to the function in a class with the entry, once all
modifications are copied. -/
def JudgedFor (env : Env) (db used : Database) (e : Entry) (f : Function) : Prop :=
  ∃ d ∈ env.header.global.decls.functions, ∃ (s : State) (home : ClassId),
    Evolves env.header { db } s ∧ s.db.SameMods used ∧ (s.store.get home).entry = e ∧
      (s.judge env ⟨some home, []⟩ d).1 = .built f

/-- The function is a free operator that was made a member of the class. As `whole` it has the
object among its arguments, and those are marked as the modifications say of the class in which it
was bound: a stream may not be that class. -/
structure OperatorOf (env : Env) (db used : Database) (c : BoundClass) (f : Function) : Prop where
  kind : f.kind = .normal ∨ f.kind = .globalScope
  isOperator : f.isOperator = true
  marks : ∃ (e : Entry) (whole : Function) (objectFirst : Bool), JudgedFor env db used e whole ∧
    (f.kind = .normal → e = c.entry) ∧ whole.declaredName = f.declaredName ∧
    f.args.map (·.type) = (withoutObject objectFirst whole.args).map (·.type) ∧
    MarkedBy (used.modsFor e whole.signature) whole.args

section
variable {db used : Database} {s t : State} {env : Env} {home : ClassId}
  {d : FunctionDecl} {f g : Function} {c : BoundClass}

/-- What was judged in a class and loses its object is one of its operators. -/
theorem operatorOf_judge (he : Evolves env.header { db } s) (hused : s.db.SameMods used)
    (hlt : home < s.store.classes.size)
    (hdecl : d ∈ env.header.global.decls.functions ∧ isOperatorName d.name = true)
    (hjudge : s.judge env ⟨some home, []⟩ d = (.built g, t))
    (hkind : f.kind = .normal ∨ f.kind = .globalScope)
    (hentry : f.kind = .normal → (s.store.get home).entry = c.entry)
    (hdeclared : f.declaredName = g.declaredName) (objectFirst : Bool)
    (hargs : f.args.map (·.type) = (withoutObject objectFirst g.args).map (·.type)) :
    OperatorOf env db used c f := by
  have hmade := (WellMade.initial db).evolves he
  have hverdict := State.verdict_judge hjudge
  obtain ⟨-, himplementing, -⟩ := judge_made hjudge
  have hmods := modsOf_of_implementing hmade.released hlt himplementing s.db
  have hwhole : JudgedFor env db used (s.store.get home).entry g :=
    ⟨d, hdecl.1, s, home, he, hused, rfl, congrArg Prod.fst hjudge⟩
  refine ⟨hkind, ?_, _, g, objectFirst, hwhole, hentry, hdeclared.symm, hargs, ?_⟩
  · unfold Function.isOperator
    rw [hdeclared, Draft.declaredName_judge hverdict]
    exact hdecl.2
  · have hmarked := Draft.markedBy_judge hverdict
    rw [hused.modsFor, ← hmods]
    exact hmarked

theorem types_reindex (args : List Argument) :
    (reindex args).map (·.type) = args.map (·.type) :=
  map_mapIdx_of_eq fun _ _ => rfl

theorem types_takeObject (objectFirst unary : Bool) (g : Function) :
    (takeObject objectFirst unary g).args.map (·.type) =
      (withoutObject objectFirst g.args).map (·.type) :=
  types_reindex _

/-- Modifications leave an operator what it is. -/
theorem OperatorOf.editFunctions (h : OperatorOf env db used c f) (mods : List FunctionMod) :
    OperatorOf env db used c (editFunctions mods f) := by
  have hsame := SameMaking.editFunctions mods f
  have hname : (Assembly.editFunctions mods f).declaredName = f.declaredName :=
    List.foldlRecOn (motive := fun g : Function => g.declaredName = f.declaredName) mods
      editFunction rfl fun _ hg _ _ => hg
  obtain ⟨hkind, hoperator, hmarks⟩ := h
  unfold Function.isOperator at hoperator
  refine ⟨by rwa [hsame.kind], by unfold Function.isOperator; rwa [hname], ?_⟩
  rwa [hsame.kind, hsame.args, hname]

end

end BindingModel.Assembly
