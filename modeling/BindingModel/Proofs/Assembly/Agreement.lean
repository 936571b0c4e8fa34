import BindingModel.Proofs.Lookup.Agreement

/-! What a function that is made of a declaration, or by a rule, depends on. -/
namespace BindingModel
open Api Header

namespace Api

/-- What a class is made for and its fields are the same; its functions and marks may differ. -/
structure BoundClass.SameOutline (c c' : BoundClass) : Prop where
  entry : c.entry = c'.entry
  fields : c.fields = c'.fields

theorem ClassStore.modsOf_congr {s s' : ClassStore} {db db' : Database}
    (hlive : s.isLive = s'.isLive) (hentry : ∀ i, (s.get i).entry = (s'.get i).entry)
    (hrules : db.SameRules db') : s.modsOf db = s'.modsOf db' := by
  funext f
  unfold modsOf follow?
  simp only [hlive, hentry, hrules.modsFor, hrules.globalModsFor]

end Api

namespace Assembly

/-! ### What is read of the class -/

section
variable {class? class?' : Option BoundClass} (h : Option.Rel BoundClass.SameOutline class? class?')
include h

theorem qualifiedName_congr :
    class?.map (·.qualifiedName) = class?'.map (·.qualifiedName) := by
  cases h with
  | none => rfl
  | some hc => simp [BoundClass.qualifiedName, hc.entry]

theorem screen?_congr {db db' : Database} (hrules : db.SameRules db') (skipDeprecated : Bool)
    (f : FunctionDecl) :
    screen? db skipDeprecated f class? = screen? db' skipDeprecated f class?' := by
  have hsome : class?.isSome = class?'.isSome := by cases h <;> rfl
  unfold screen?
  rw [hrules.rejection?, qualifiedName_congr h, hsome]

theorem fixDefault_congr (expression : String) (type : BoundType) :
    fixDefault expression type class? = fixDefault expression type class?' := by
  cases h with
  | none => rfl
  | some hc =>
    unfold fixDefault fixConstructorDefault
    simp only [BoundClass.name, hc.entry, hc.fields]

theorem editArguments_congr (mods : List FunctionMod) (f : Function) :
    editArguments mods class? f = editArguments mods class?' f := by
  unfold editArguments fixArgumentDefault
  simp only [qualifiedName_congr h, fixDefault_congr h]

end

namespace Draft

/-- Both stand at the same place, where the same names are known and the class has the same
outline. -/
structure Agrees (d e : Draft) : Prop where
  lookup : d.lookup.Agrees e.lookup
  isLive : d.lookup.store.isLive = e.lookup.store.isLive
  path : d.path = e.path
  class? : d.class? = e.class?
  fields : ∀ i, d.class? = some i → (d.lookup.store.get i).fields = (e.lookup.store.get i).fields

namespace Agrees
variable {d e : Draft} (h : d.Agrees e)
include h

theorem entry (i : ClassId) : (d.lookup.store.get i).entry = (e.lookup.store.get i).entry :=
  BoundClass.entry_eq_of_head (h.lookup.head i)

theorem modsOf : d.lookup.store.modsOf d.lookup.db = e.lookup.store.modsOf e.lookup.db :=
  ClassStore.modsOf_congr h.isLive h.entry h.lookup.rules

theorem classOf? : Option.Rel BoundClass.SameOutline d.classOf? e.classOf? := by
  unfold Draft.classOf?
  rw [← h.class?]
  cases hc : d.class? with
  | none => exact .none
  | some i => exact .some ⟨h.entry i, h.fields i hc⟩

theorem className : d.className = e.className := by
  unfold Draft.className
  rw [qualifiedName_congr h.classOf?]

theorem isGenerated : d.isGenerated = e.isGenerated := by
  have hclass := h.classOf?
  unfold Draft.isGenerated
  rw [h.lookup.rules.generatesTargetLang]
  generalize d.classOf? = c?, e.classOf? = c?' at hclass
  cases hclass with
  | none => rfl
  | some hc => simp only [hc.entry]

theorem bindType : d.bindType = e.bindType := by
  funext t
  unfold Draft.bindType
  rw [h.lookup.bindType, h.class?, h.path]

/-! ### Declarations -/

theorem bindArguments (key : String) (i : Nat) (l : List ArgumentDecl) :
    d.bindArguments key i l = e.bindArguments key i l := by
  induction l generalizing i with
  | nil => rfl
  | cons a l ih =>
    unfold Draft.bindArguments
    rw [h.bindType, h.isGenerated, ih]

theorem varargs : d.varargs = e.varargs := by
  funext f i
  unfold Draft.varargs
  rw [h.lookup.rules.findType?]

theorem assignmentKind (f : Function) : d.assignmentKind f = e.assignmentKind f := by
  have hclass := h.classOf?
  unfold Draft.assignmentKind
  generalize d.classOf? = c?, e.classOf? = c?' at hclass
  cases hclass with
  | none => rfl
  | some hc =>
    cases f.args with
    | nil => rfl
    | cons a rest =>
      cases rest with
      | nil => simp only [hc.entry]
      | cons b rest => rfl

theorem finish : d.finish = e.finish := by
  funext f
  unfold Draft.finish
  simp only [h.class?, h.modsOf, editArguments_congr h.classOf?, h.assignmentKind]

theorem bind (f : FunctionDecl) : d.bind f = e.bind f := by
  have hclass := h.classOf?
  unfold Draft.bind
  rw [h.className, h.bindType, h.finish, h.varargs]
  simp only [h.bindArguments]
  generalize d.classOf? = c?, e.classOf? = c?' at hclass
  cases hclass with
  | none => rfl
  | some hc =>
    simp only [BoundClass.name, hc.entry]
    rfl

/-- The same becomes of a declaration. -/
theorem judge (skipDeprecated : Bool) (f : FunctionDecl) :
    d.judge skipDeprecated f = e.judge skipDeprecated f := by
  unfold Draft.judge
  rw [screen?_congr h.classOf? h.lookup.rules, h.bind]

/-! ### Functions of rules -/

theorem bindNamed : d.bindNamed = e.bindNamed := by
  funext t
  unfold Draft.bindNamed
  rw [h.bindType, h.lookup.rules.candidates]

theorem bindAdded (i : Nat) (l : List AddedArgument) : d.bindAdded i l = e.bindAdded i l := by
  induction l generalizing i with
  | nil => rfl
  | cons a l ih =>
    unfold Draft.bindAdded
    rw [h.bindNamed, ih]

theorem reverseOperator : d.reverseOperator = e.reverseOperator := by
  funext f
  have hclass := h.classOf?
  unfold Draft.reverseOperator
  generalize d.classOf? = c?, e.classOf? = c?' at hclass
  cases hclass with
  | none => rfl
  | some hc => simp only [Option.any_some, hc.entry]

/-- The rules add the same function. -/
theorem added (a : AddedFunction) : d.added a = e.added a := by
  have hkind : ∀ i, addedKind (d.lookup.store.get i) = addedKind (e.lookup.store.get i) := by
    intro i
    funext f
    unfold addedKind BoundClass.name
    rw [h.entry]
  unfold Draft.added
  rw [h.bindNamed, h.reverseOperator, h.class?, h.modsOf]
  simp only [h.bindAdded, BoundClass.isNamespace, h.entry, hkind]

end Agrees
end Draft
end Assembly
end BindingModel
