import BindingModel.Proofs.Assembly.ArgumentEdits
import BindingModel.Proofs.Assembly.ConstructorNames

/-! What a declaration is made into inside a class: its types are bound there, one by one, and the
modifications edit the arguments that they are bound to. -/
namespace BindingModel.Assembly
open Api Header

namespace Draft
variable {d : Draft} {f : FunctionDecl} {g : Function} {c : ClassId} {key : String} {i k : Nat}
  {l : List ArgumentDecl} {args : List Argument} {ws : List Warning}

/-! ### Arguments -/

/-- The argument that a parameter becomes once its type is bound. -/
structure Gives (d : Draft) (p : ArgumentDecl) (a : Argument) : Prop where
  type : d.bindType p.type = .ok a.type
  default? : a.default? = none
  declaredDefault? : a.declaredDefault? = p.default?

theorem bindArguments_gives (h : d.bindArguments key i l = .ok (args, ws)) {a : Argument}
    (ha : args[k]? = some a) : ∃ p, l[k]? = some p ∧ d.Gives p a := by
  induction l generalizing i k args ws with
  | nil =>
    cases h
    cases ha
  | cons p l ih =>
    unfold bindArguments at h
    split at h
    · next type htype =>
      obtain ⟨⟨rest, more⟩, hrest, h⟩ := Error.bind_eq_ok h
      cases h
      cases k with
      | zero =>
        cases ha
        exact ⟨p, rfl, htype, rfl, rfl⟩
      | succ k => exact ih hrest ha
    · cases h
      cases ha
    · cases h

/-- Only a parameter with a default can be dropped, and only if its type cannot be bound. -/
theorem length_bindArguments (h : d.bindArguments key i l = .ok (args, ws))
    (hl : ∀ p ∈ l, p.default? = none ∨ ∃ t, d.bindType p.type = .ok t) :
    args.length = l.length := by
  induction l generalizing i args ws with
  | nil =>
    cases h
    rfl
  | cons p l ih =>
    obtain ⟨hp, hl⟩ := List.forall_mem_cons.mp hl
    unfold bindArguments at h
    split at h
    · obtain ⟨⟨rest, more⟩, hrest, h⟩ := Error.bind_eq_ok h
      cases h
      rw [List.length_cons, List.length_cons, ih hrest hl]
    · next htype hdefault =>
      rcases hp with hnone | ⟨t, ht⟩
      · rw [hnone] at hdefault
        cases hdefault
      · rw [ht] at htype
        cases htype
    · cases h

theorem exists_bindArguments (hl : ∀ p ∈ l, ∃ t, d.bindType p.type = .ok t) :
    ∃ args ws, d.bindArguments key i l = .ok (args, ws) := by
  induction l generalizing i with
  | nil => exact ⟨[], [], rfl⟩
  | cons p l ih =>
    obtain ⟨⟨t, ht⟩, hl⟩ := List.forall_mem_cons.mp hl
    obtain ⟨args, ws, hrest⟩ := ih (i := i + 1) hl
    refine ⟨{ Argument.make p.name t i with declaredDefault? := p.default? } :: args, ws, ?_⟩
    unfold bindArguments
    rw [ht, hrest]
    cases p.default? <;> rfl

/-! ### The function as a whole -/

/-- The parameters that are bound: a single `void` stands for none. -/
def parameters (f : FunctionDecl) : List ArgumentDecl :=
  if f.args.length = 1 ∧ f.args.all (·.type.isVoid) = true then [] else f.args

/-- The kind that a declaration has where it stands. -/
def kindOf (d : Draft) (f : FunctionDecl) : Api.FunctionKind :=
  (d.classOf?.map fun c => kindInClass f c.name).getD (.ofDecl f.kind)

/-- The return type, bound where the declaration stands, if the function has one. -/
def Returns (d : Draft) (f : FunctionDecl) (returnType? : Option BoundType) : Prop :=
  if returns (d.kindOf f) f = true then
    ∃ t, d.bindType f.returnType = .ok t ∧ returnType? = some t
  else returnType? = none

/-- The function once its types are bound, before the modifications. -/
def drafted (d : Draft) (f : FunctionDecl) (returnType? : Option BoundType)
    (args : List Argument) : Function :=
  { Function.make f.name (d.kindOf f) with
    name := (d.classOf?.map fun c =>
      if (Function.make f.name (d.kindOf f)).isConstructor then c.name else f.name).getD f.name
    attrs := attrsOf f.specifiers
    visibility := Visibility.ofAccess f.access
    exceptionSpec := f.exceptionSpec
    returnType?
    args := args ++ d.varargs f args.length }

theorem args_drafted (hvariadic : f.specifiers.has .variadic = false)
    (returnType? : Option BoundType) (args : List Argument) :
    (d.drafted f returnType? args).args = args := by
  show args ++ d.varargs f args.length = args
  unfold varargs
  rw [if_neg (by simp [hvariadic]), List.append_nil]

theorem returns_iff {returnType? : Option BoundType} : d.Returns f returnType? ↔
    (if returns (d.kindOf f) f then some <$> d.bindType f.returnType else .ok none) =
      (.ok returnType? : Except Error (Option BoundType)) := by
  unfold Returns
  split
  · cases d.bindType f.returnType with
    | error e => simp
    | ok t => simp [eq_comm]
  · simp [eq_comm]

theorem bind_eq_built_iff : (d.bind f).1 = .built g ↔
    ∃ returnType? args ws, d.Returns f returnType? ∧
      d.bindArguments (declKey f d.className) 0 (parameters f) = .ok (args, ws) ∧
      g = (d.finish (d.drafted f returnType? args)).1 := by
  simp only [returns_iff]
  have hone : ∀ p, f.args = [p] → parameters f = if p.type.isVoid then [] else [p] := by
    intro p hp
    simp [parameters, hp]
  have hmany : (∀ p, f.args ≠ [p]) → parameters f = f.args := by
    intro hne
    refine if_neg fun h => ?_
    obtain ⟨p, hp⟩ := List.length_eq_one_iff.mp h.1
    exact hne p hp
  unfold bind drafted kindOf
  cases d.classOf? <;>
    dsimp only [Option.map_none, Option.map_some, Option.getD_none, Option.getD_some]
  all_goals
    split
    · next hret =>
      refine ⟨fun h => (by cases h), fun ⟨_, _, _, hret', _⟩ => ?_⟩
      cases hret.symm.trans hret'
    · next returnType? hret =>
      split
      · next w type hbound =>
        have hbound : d.bindArguments (declKey f d.className) 0 (parameters f) =
            .error (w, type) := by
          split at hbound
          · next hp => rwa [hone _ hp]
          · next hne => rwa [hmany hne]
        refine ⟨fun h => (by cases h), fun ⟨_, _, _, _, hbound', _⟩ => ?_⟩
        cases hbound.symm.trans hbound'
      · next args ws hbound =>
        have hbound : d.bindArguments (declKey f d.className) 0 (parameters f) =
            .ok (args, ws) := by
          split at hbound
          · next hp => rwa [hone _ hp]
          · next hne => rwa [hmany hne]
        refine ⟨fun h => ⟨_, _, _, hret, hbound, (Verdict.built.inj h).symm⟩, ?_⟩
        rintro ⟨_, _, _, hret', hbound', rfl⟩
        cases hret.symm.trans hret'
        cases hbound.symm.trans hbound'
        rfl

/-- A function is made of a declaration that is not left out as soon as its types can be bound. -/
theorem judge_eq_built_iff {skipDeprecated : Bool} :
    (d.judge skipDeprecated f).1 = .built g ↔
      screen? d.lookup.db skipDeprecated f d.classOf? = none ∧
        ∃ returnType? args ws, d.Returns f returnType? ∧
          d.bindArguments (declKey f d.className) 0 (parameters f) = .ok (args, ws) ∧
          g = (d.finish (d.drafted f returnType? args)).1 := by
  unfold judge
  cases hscreen : screen? d.lookup.db skipDeprecated f d.classOf? with
  | some verdict =>
    refine ⟨fun h => ?_, fun ⟨h, _⟩ => by cases h⟩
    obtain rfl : verdict = .built g := h
    exact absurd hscreen (screen?_ne_built _ _ f _ g)
  | none => simpa using bind_eq_built_iff

/-! ### What the modifications make of it -/

/-- To finish a function changes neither its return type nor its attributes, and its kind only to
that of an assignment. -/
theorem finish_kept (d : Draft) (g : Function) : (d.finish g).1.returnType? = g.returnType? ∧
    (d.finish g).1.attrs = g.attrs ∧
      ((d.finish g).1.kind = g.kind ∨ (d.finish g).1.kind = .assignmentOperator ∨
        (d.finish g).1.kind = .moveAssignmentOperator) := by
  unfold finish
  dsimp only
  split <;> exact ⟨rfl, rfl, assignmentKind_cases d _⟩

theorem finish_edited (hc : d.class? = some c) (g : Function) :
    let mods := d.lookup.store.modsOf d.lookup.db (g.setOwner c)
    (d.finish g).1.args.length = g.args.length ∧
      ∀ k a, g.args[k]? = some a →
        ∃ b, (d.finish g).1.args[k]? = some b ∧ Edited mods d.classOf? k a b := by
  intro mods
  have hargs : (d.finish g).1.args = (editArguments mods d.classOf? (g.setOwner c)).1.args := by
    unfold finish
    rw [hc]
  rw [hargs]
  exact ⟨length_editArguments mods d.classOf? (g.setOwner c),
    fun k a ha => editArguments_edited mods d.classOf? (g.setOwner c) ha⟩

/-- No modification of a function of the class marks an array. -/
def MarksNone (d : Draft) : Prop :=
  ∀ c, d.classOf? = some c → ∀ m ∈ d.lookup.db.mods c.entry, ∀ x ∈ m.args, x.isArray = false

/-- The type is what a type is bound to where the declaration stands, up to what modifications of
the class mark as an array. -/
structure Types (d : Draft) (written : TypeExpr) (type : BoundType) : Prop where
  marked : ∃ t, d.bindType written = .ok t ∧ t.Marked type
  plain : d.MarksNone → d.bindType written = .ok type

/-- An argument for what a variadic function takes behind its parameters. -/
def IsVarargs (d : Draft) (f : FunctionDecl) (b : Argument) : Prop :=
  f.specifiers.has .variadic = true ∧ d.lookup.db.findType? "..." = some b.type.entry

theorem getElem?_parameters {p : ArgumentDecl} (h : (parameters f)[k]? = some p) :
    f.args[k]? = some p := by
  unfold parameters at h
  split at h
  · cases h
  · exact h

section
variable {skipDeprecated : Bool} (hc : d.class? = some c)
  (hlive : d.lookup.store.isLive c = true)
include hc hlive

/-- Every argument stands for the parameter at its position, or for `...`. -/
theorem judge_arguments (h : (d.judge skipDeprecated f).1 = .built g) {b : Argument}
    (hb : g.args[k]? = some b) :
    (∃ p, f.args[k]? = some p ∧ d.Types p.type b.type) ∨ d.IsVarargs f b := by
  obtain ⟨-, returnType?, args, ws, -, hbound, rfl⟩ := judge_eq_built_iff.mp h
  let made := d.drafted f returnType? args
  obtain ⟨hlength, hedited⟩ := finish_edited hc made
  obtain ⟨a, ha⟩ : ∃ a, made.args[k]? = some a := by
    have hk := (List.getElem?_eq_some_iff.mp hb).1
    exact ⟨_, List.getElem?_eq_getElem (hlength ▸ hk)⟩
  obtain ⟨b', hb', hedit⟩ := hedited k a ha
  obtain rfl := Option.some.inj (hb.symm.trans hb')
  have hargs : made.args = args ++ d.varargs f args.length := rfl
  rw [hargs, List.getElem?_append] at ha
  split at ha
  · obtain ⟨p, hp, hgives⟩ := bindArguments_gives hbound ha
    refine .inl ⟨p, getElem?_parameters hp, ⟨a.type, hgives.type, hedit.marked⟩, fun hnone => ?_⟩
    have hclass : d.classOf? = some (d.lookup.store.get c) := by
      unfold classOf?
      rw [hc]
      rfl
    rw [hedit.type, marksAt_eq_zero fun m hm x hx => ?_]
    · exact hgives.type
    · rw [modsOf_of_isLive hlive rfl] at hm
      exact hnone _ hclass m (List.mem_filter.mp hm).1 x hx
  · have hmem := List.mem_of_getElem? ha
    unfold varargs at hmem
    split at hmem
    · next hvariadic =>
      obtain ⟨x, hx⟩ := Option.mem_toList.mp hmem |> Option.map_eq_some_iff.mp
      refine .inr ⟨hvariadic, ?_⟩
      rw [hedit.marked.same.1, ← hx.2]
      exact hx.1
    · cases hmem

end

theorem judge_returns {skipDeprecated : Bool} (h : (d.judge skipDeprecated f).1 = .built g) :
    d.Returns f g.returnType? := by
  obtain ⟨-, returnType?, args, ws, hreturns, -, rfl⟩ := judge_eq_built_iff.mp h
  rw [(finish_kept d _).1]
  exact hreturns

/-- Of a function that is not variadic and has no defaults, every parameter stays. -/
theorem judge_length {skipDeprecated : Bool} (hc : d.class? = some c)
    (h : (d.judge skipDeprecated f).1 = .built g) (hvariadic : f.specifiers.has .variadic = false)
    (hdefaults : ∀ p ∈ parameters f, p.default? = none) :
    g.args.length = (parameters f).length := by
  obtain ⟨-, returnType?, args, ws, -, hbound, rfl⟩ := judge_eq_built_iff.mp h
  rw [(finish_edited hc _).1, args_drafted hvariadic]
  exact length_bindArguments hbound fun p hp => .inl (hdefaults p hp)

/-! ### Drafts that agree -/

namespace Agrees
variable {e : Draft} (h : d.Agrees e)
include h

theorem returns {returnType? : Option BoundType} (hr : e.Returns f returnType?) :
    d.Returns f returnType? := by
  have hkind : d.kindOf f = e.kindOf f := by
    have hclass := h.classOf?
    unfold kindOf
    generalize d.classOf? = c?, e.classOf? = c?' at hclass
    cases hclass with
    | none => rfl
    | some hc => simp [BoundClass.name, hc.entry]
  unfold Returns at hr ⊢
  rw [hkind, h.bindType]
  exact hr

theorem types {written : TypeExpr} {type : BoundType} (ht : e.Types written type) :
    d.Types written type := by
  refine ⟨?_, fun hnone => ?_⟩
  · rw [h.bindType]
    exact ht.marked
  · rw [h.bindType]
    refine ht.plain fun c' hc' => ?_
    have hclass := h.classOf?
    rw [hc'] at hclass
    cases hd : d.classOf? with
    | none =>
      rw [hd] at hclass
      cases hclass
    | some c =>
      rw [hd] at hclass
      cases hclass with
      | some hsame =>
        rw [← h.lookup.rules.mods, ← hsame.entry]
        exact hnone c hd

theorem isVarargs {b : Argument} (hb : e.IsVarargs f b) : d.IsVarargs f b := by
  obtain ⟨hvariadic, hentry⟩ := hb
  refine ⟨hvariadic, ?_⟩
  rw [h.lookup.rules.findType?]
  exact hentry

end Agrees
end Draft
end BindingModel.Assembly
