import BindingModel.Proofs.Assembly.Evolution
import BindingModel.Proofs.Assembly.Outcome

/-! The passes of an assembly that neither create, nor file, nor link a class, one by one. -/
namespace BindingModel
open Api Header

namespace Api

/-- What a class is created with and what ties it to others. -/
structure ClassTies where
  head : ClassHead
  base? : Option ClassId
  enclosing? : Option ClassId
  templateBase? : Option ClassId
  interfaces : List ClassId
  inner : List ClassId

namespace BoundClass

def ties (c : BoundClass) : ClassTies where
  head := c.head
  base? := c.base?
  enclosing? := c.enclosing?
  templateBase? := c.templateBase?
  interfaces := c.interfaces
  inner := c.inner

theorem ties_addExternalConversion (c : BoundClass) (r : FunctionRef) :
    (c.addExternalConversion r).ties = c.ties := by
  unfold addExternalConversion
  split <;> rfl

end BoundClass
end Api

namespace Assembly

/-- Where the classes are filed, and those whose bases are resolved or being resolved. -/
structure Filing where
  registry : Registry
  templates : List ClassId
  smartPointers : List ClassId
  settled : List ClassId

def State.filing (s : State) : Filing where
  registry := s.registry
  templates := s.templates
  smartPointers := s.smartPointers
  settled := s.settled

/-- The same classes are filed in the same places, and the same ties lead from each. -/
structure Quiet (s t : State) : Prop where
  filing : t.filing = s.filing
  released : t.store.released = s.store.released
  size : t.store.classes.size = s.store.classes.size
  ties : ∀ c, (t.store.get c).ties = (s.store.get c).ties

namespace Quiet
variable {s t u : State}

theorem of_eq (hfiling : t.filing = s.filing) (hstore : t.store = s.store) : Quiet s t := by
  refine ⟨hfiling, ?_, ?_, fun c => ?_⟩ <;> rw [hstore]

theorem refl (s : State) : Quiet s s := of_eq rfl rfl

theorem trans (h : Quiet s t) (k : Quiet t u) : Quiet s u :=
  ⟨k.filing.trans h.filing, k.released.trans h.released, k.size.trans h.size,
    fun c => (k.ties c).trans (h.ties c)⟩

instance : Std.Refl Quiet := ⟨refl⟩

instance : IsTrans State Quiet := ⟨fun _ _ _ => trans⟩

theorem foldl {α : Type} {f : State → α → State} (hf : ∀ s a, Quiet s (f s a)) (l : List α)
    (s : State) : Quiet s (l.foldl f s) :=
  List.foldlRecOn l f (refl s) fun t ht a _ => ht.trans (hf t a)

theorem modifyClass (h : Quiet s t) (i : ClassId) {f : BoundClass → BoundClass}
    (hf : ∀ c : BoundClass, (f c).ties = c.ties) : Quiet s (t.modifyClass i f) := by
  refine h.trans ⟨rfl, rfl, t.store.size_modify i f, fun c => ?_⟩
  show ((t.store.modify i f).get c).ties = _
  rw [ClassStore.get_modify]
  split
  · exact hf _
  · rfl

theorem foldlStore {α : Type} {f : ClassStore → α → ClassStore}
    (hf : ∀ (s : State) a, Quiet s { s with store := f s.store a }) (l : List α) (s : State) :
    Quiet s { s with store := l.foldl f s.store } := by
  induction l generalizing s with
  | nil => exact refl s
  | cons a l ih => exact (hf s a).trans (ih { s with store := f s.store a })

theorem warn (h : Quiet s t) (w : Warning) : Quiet s (t.warn w) := h.trans (of_eq rfl rfl)

theorem warnAll (h : Quiet s t) (ws : List Warning) : Quiet s (t.warnAll ws) :=
  h.trans (foldl (fun u w => (refl u).warn w) ws t)

theorem warnIf (h : Quiet s t) (b : Bool) (w : Warning) : Quiet s (t.warnIf b w) := by
  unfold State.warnIf
  split
  · exact h.warn w
  · exact h

theorem reject (h : Quiet s t) (c : RejectCategory) (r : RejectRecord) :
    Quiet s (t.reject c r) :=
  h.trans (of_eq rfl rfl)

theorem modifyDatabase (h : Quiet s t) (f : Database → Database) :
    Quiet s (t.modifyDatabase f) :=
  h.trans (of_eq rfl rfl)

theorem applyInclude (h : Quiet s t) (env : Env) (e : Entry) (file? : Option String) :
    Quiet s (t.applyInclude env e file?) := by
  unfold State.applyInclude
  split
  · exact h.modifyDatabase _
  · exact h

end Quiet

/-! ### Enums and properties -/

theorem enumEntry_quiet (s : State) (d : EnumDecl) (scope : String) :
    Quiet s (enumEntry s d scope).2.2 := by
  unfold enumEntry
  dsimp only
  split
  · split
    · exact .refl s
    · exact .of_eq rfl rfl
  · split
    · split <;> exact .refl s
    · exact .refl s

theorem scanEnum_quiet (env : Env) (s : State) (enclosing? : Option ClassId) (d : EnumDecl) :
    Quiet s (scanEnum env s enclosing? d).2 := by
  unfold scanEnum
  dsimp only
  generalize ((enclosing?.map fun c => (s.store.get c).qualifiedName).getD "") = scope
  have hentry := enumEntry_quiet s d scope
  generalize enumEntry s d scope = found at hentry
  obtain ⟨found?, name, t⟩ := found
  dsimp only at hentry ⊢
  split
  · split
    · exact (hentry.modifyDatabase _).reject .enums _
    · exact hentry.reject .enums _
  · split
    · exact (hentry.warnIf _ _).reject .enums _
    · next e _ =>
      refine Quiet.applyInclude (Quiet.modifyDatabase ?_ _) env e d.file?
      split
      · exact hentry.modifyDatabase _
      · exact hentry

theorem addEnums_quiet (env : Env) (c : ClassId) (enums : List EnumDecl) (s : State) :
    Quiet s (addEnums env c enums s) := by
  refine Quiet.foldl (fun s d => ?_) enums s
  have hscan := scanEnum_quiet env s (some c) d
  split
  · next e t h =>
    rw [h] at hscan
    exact hscan.modifyClass c fun _ => rfl
  · next t h =>
    rwa [h] at hscan

theorem addGlobalEnums_quiet (env : Env) (s : State) : Quiet s (addGlobalEnums env s) := by
  refine Quiet.foldl (fun s d => ?_) _ s
  have hscan := scanEnum_quiet env s none d
  split
  · next e t h =>
    rw [h] at hscan
    split
    · exact hscan.trans (.of_eq rfl rfl)
    · exact hscan
  · next t h =>
    rwa [h] at hscan

theorem addProperties_quiet (env : Env) (p : Place) (c : ClassId) (texts : List String)
    (s : State) : Quiet s (addProperties env p c texts s) := by
  unfold addProperties
  exact (((Quiet.refl s).warnAll _).warnAll _).modifyClass c fun _ => rfl

theorem openScope_quiet (key : String) (c : ClassId) (s : State) : Quiet s (openScope key c s) :=
  .of_eq rfl rfl

/-! ### Functions of the rules -/

section
variable {env : Env} {p : Place} {s : State}

theorem makeAdded_quiet (class? : Option ClassId) (a : AddedFunction) :
    Outcome Quiet (fun _ _ => True) (makeAdded env p class? a) s := by
  refine .get_bind ?_
  dsimp only
  split
  · exact .andThen (.set ((Quiet.refl s).warnAll _)) fun _ _ => .pure _
  · exact .throw trivial

theorem fillAdded_quiet (c : ClassId) :
    Outcome Quiet (fun _ _ => True) (fillAdded env p c) s := by
  refine .get_bind ?_
  dsimp only
  split
  · exact .pure _
  · refine Outcome.forM fun a _ t _ => (makeAdded_quiet (some c) a).andThen fun f u => .modify ?_
    exact (Quiet.refl u).modifyClass c fun _ => rfl

theorem fillGlobalAdded_quiet :
    Outcome Quiet (fun _ _ => True) (fillGlobalAdded env) s := by
  refine .get_bind (Outcome.forM fun a _ t _ => ?_)
  exact (makeAdded_quiet none a).andThen fun f u => .modify (.of_eq rfl rfl)

end

/-! ### Members -/

theorem addField_quiet (env : Env) (p : Place) (i : ClassId) (s : State) (v : VariableDecl) :
    Quiet s (addField env p i s v) := by
  unfold addField
  dsimp only
  split
  · exact (Quiet.refl s).modifyClass i fun _ => rfl
  · exact .refl s
  · exact (Quiet.refl s).reject .fields _
  · exact (Quiet.refl s).warnIf _ _

theorem judge_quiet (env : Env) (s : State) (p : Place) (d : FunctionDecl) :
    Quiet s (s.judge env p d).2 := by
  unfold State.judge
  dsimp only
  split
  · exact ((Quiet.refl s).warnAll _).reject .functions _
  · exact (Quiet.refl s).warnAll _

theorem addMember_quiet (env : Env) (p : Place) (i : ClassId) (s : State) (d : FunctionDecl) :
    Quiet s (addMember env p i s d) := by
  have hjudge := judge_quiet env s p d
  unfold addMember
  dsimp only
  split
  · next t ht =>
    rwa [ht] at hjudge
  · next t ht =>
    rw [ht] at hjudge
    exact hjudge.modifyClass i fun _ => rfl
  · next f t ht =>
    rw [ht] at hjudge
    have hmark : ∀ marks, Quiet s (t.modifyClass i fun c =>
        { c with attrs := c.attrs.insertAll marks }) :=
      fun _ => hjudge.modifyClass i fun _ => rfl
    split
    · exact hmark _
    · split
      · exact hmark _
      · exact (hmark _).modifyClass i fun _ => rfl

theorem addMembers_quiet (env : Env) (p : Place) (i : ClassId) (d : Declarations) (s : State) :
    Outcome Quiet (fun _ _ => True) (addMembers env p i d) s := by
  refine .andThen (.modify (.foldl (addField_quiet env p i) _ s)) fun _ t => ?_
  refine .andThen (.modify (.foldl (addMember_quiet env p i) _ t)) fun _ u => ?_
  exact fillAdded_quiet i

mutual

theorem fillClass_quiet (env : Env) (p : Place) (s : State) :
    (d : ClassDecl) → Outcome Quiet (fun _ _ => True) (fillClass env p d) s
  | ⟨decls, classes, _, _, _, _⟩ => by
    unfold fillClass
    refine .get_bind ?_
    split
    · exact .pure _
    · refine .andThen (addMembers_quiet env _ _ decls s) fun _ t => ?_
      exact fillClasses_quiet env _ t classes

theorem fillClasses_quiet (env : Env) (p : Place) (s : State) :
    (l : List ClassDecl) → Outcome Quiet (fun _ _ => True) (fillClasses env p l) s
  | [] => .pure _
  | d :: ds => .andThen (fillClass_quiet env p s d) fun _ t => fillClasses_quiet env p t ds

end

mutual

theorem fillNamespace_quiet (env : Env) (p : Place) (s : State) :
    (d : NamespaceDecl) → Outcome Quiet (fun _ _ => True) (fillNamespace env p d) s
  | ⟨decls, classes, namespaces⟩ => by
    unfold fillNamespace
    refine .get_bind ?_
    split
    · exact .pure _
    · refine .andThen (addMembers_quiet env _ _ decls s) fun _ t => ?_
      refine .andThen (fillClasses_quiet env _ t classes) fun _ u => ?_
      exact fillNamespaces_quiet env _ u namespaces

theorem fillNamespaces_quiet (env : Env) (p : Place) (s : State) :
    (l : List NamespaceDecl) → Outcome Quiet (fun _ _ => True) (fillNamespaces env p l) s
  | [] => .pure _
  | d :: ds =>
    .andThen (fillNamespace_quiet env p s d) fun _ t => fillNamespaces_quiet env p t ds

end

theorem addGlobalFunction_quiet (env : Env) (s : State) (d : FunctionDecl) :
    Quiet s (addGlobalFunction env s d) := by
  have hjudge := judge_quiet env s {} d
  unfold addGlobalFunction
  split
  · exact .refl s
  · split
    · exact .refl s
    · next entry _ =>
      split
      · next f t ht =>
        rw [ht] at hjudge
        dsimp only
        split
        · exact (hjudge.applyInclude env entry d.file?).trans (.of_eq rfl rfl)
        · exact hjudge
      · next t _ ht =>
        rwa [ht] at hjudge

theorem fillAll_quiet (env : Env) (s : State) :
    Outcome Quiet (fun _ _ => True) (fillAll env) s := by
  refine .andThen (fillClasses_quiet env {} s _) fun _ t => ?_
  refine .andThen (fillNamespaces_quiet env {} t _) fun _ u => ?_
  exact .modify (.foldl (addGlobalFunction_quiet env) _ u)

/-! ### Instances -/

theorem argumentEntry_quiet (s : State) (c template : ClassId) (name : String) :
    Quiet s (argumentEntry s c template name).2 := by
  unfold argumentEntry
  split
  · split
    · exact .refl s
    · exact .of_eq rfl rfl
  · exact .refl s

theorem bindArguments_quiet (c template : ClassId) (t : TypeExpr) (l : List TypeExpr)
    (s : State) : Quiet s (bindArguments c template t l s).2 := by
  induction l generalizing s with
  | nil => exact .refl s
  | cons a l ih =>
    have hentry := argumentEntry_quiet s c template a.qualifiedName
    unfold bindArguments
    split
    · next u hu =>
      rw [hu] at hentry
      exact (hentry.warn _).trans (ih _)
    · next e u hu =>
      rw [hu] at hentry
      exact hentry.trans (ih u)

theorem warnUninstantiable_quiet (env : Env) (s : State) (u : Uninstantiable) :
    Quiet s (warnUninstantiable env s u) := by
  unfold warnUninstantiable
  split
  · exact (Quiet.refl s).warn _
  · exact .refl s

theorem inheritFunction_quiet (env : Env) (i : ClassId) (template : BoundClass)
    (bindings : List BoundType) (s : State) (f : Function) :
    Quiet s (inheritFunction env i template bindings s f) := by
  unfold inheritFunction
  dsimp only
  split
  · split
    · exact warnUninstantiable_quiet env s _
    · exact (((Quiet.refl s).modifyDatabase _).warnAll _).modifyClass i fun _ => rfl
  · exact .refl s

theorem inheritField_quiet (env : Env) (i : ClassId) (template : BoundClass)
    (bindings : List BoundType) (s : State) (f : Field) :
    Quiet s (inheritField env i template bindings s f) := by
  unfold inheritField
  dsimp only
  split
  · exact .refl s
  · split
    · exact warnUninstantiable_quiet env s _
    · exact (Quiet.refl s).modifyClass i fun _ => rfl

/-! ### Completion -/

theorem addImplicitAll_quiet (s : State) : Quiet s (addImplicitAll s) := by
  refine Quiet.foldlStore (fun t i => ?_) _ s
  have hmake : ∀ u : State, Quiet u
      { u with store := u.store.modify i fun c => c.addFunction (implicitConstructor i c) } :=
    fun u => (Quiet.refl u).modifyClass i fun _ => rfl
  have hcopy : ∀ (u : State) (isPrivate : Bool), Quiet u
      { u with store := u.store.modify i fun c => c.addFunction (implicitCopy i c isPrivate) } :=
    fun u isPrivate => (Quiet.refl u).modifyClass i fun _ => rfl
  unfold addImplicit
  dsimp only
  split
  · split
    · split
      · exact (hmake t).trans (hcopy _ _)
      · exact hmake t
    · split
      · exact hcopy t _
      · exact .refl t
  · exact .refl t

theorem checkEntries_quiet (s : State) : Quiet s (checkEntries s) := by
  refine Quiet.foldl (fun t e => ?_) _ s
  unfold checkEntry
  split
  · exact (Quiet.refl t).warnIf _ _
  · exact (Quiet.refl t).warnIf _ _
  · split
    · exact (Quiet.refl t).warnAll _
    · exact .refl t
  · split
    · exact ((Quiet.refl t).modifyDatabase _).warn _
    · exact .refl t
  · exact .refl t

theorem markClassOf_quiet (env : Env) (a : ArgumentDecl) (mark : ClassAttr) (s : State) :
    Quiet s (markClassOf env a mark s) := by
  unfold markClassOf
  split
  · exact (Quiet.refl s).modifyClass _ fun _ => rfl
  · exact .refl s

theorem markHashable_quiet (env : Env) (s : State) : Quiet s (markHashable env s) := by
  refine Quiet.foldl (fun t d => ?_) _ s
  split
  · exact markClassOf_quiet env _ _ t
  · exact .refl t

theorem markPrintable_quiet (env : Env) (s : State) : Quiet s (markPrintable env s) := by
  refine Quiet.foldl (fun t d => ?_) _ s
  split
  · split
    · exact markClassOf_quiet env _ _ t
    · exact .refl t
  · exact .refl t

theorem addOperator_quiet (env : Env) (s : State) (d : FunctionDecl) :
    Quiet s (addOperator env s d) := by
  unfold addOperator
  split
  · exact .refl s
  · split
    · exact .refl s
    · next home objectFirst _ =>
      have hjudge := judge_quiet env s ⟨some home, []⟩ d
      split
      · next f t ht =>
        rw [ht] at hjudge
        split
        · exact hjudge
        · exact hjudge.modifyClass home fun _ => rfl
      · next t _ ht =>
        rwa [ht] at hjudge

theorem addStreamOperator_quiet (env : Env) (s : State) (d : FunctionDecl) :
    Quiet s (addStreamOperator env s d) := by
  unfold addStreamOperator
  split
  · split
    · next streamed _ _ =>
      have hjudge := judge_quiet env s ⟨some streamed, []⟩ d
      split
      · exact .refl s
      · split
        · next f t ht =>
          rw [ht] at hjudge
          split
          · exact hjudge.modifyClass _ fun _ => rfl
          · exact hjudge
        · next t _ ht =>
          rwa [ht] at hjudge
    · exact .refl s
  · exact .refl s

theorem addOperators_quiet (env : Env) (s : State) : Quiet s (addOperators env s) :=
  (Quiet.foldl (addOperator_quiet env) _ s).trans (.foldl (addStreamOperator_quiet env) _ _)

/-- Operators are taken up, one after another, when the entries were checked and the classes marked. -/
theorem complete_eq (env : Env) (s : State) :
    ∃ t, Quiet (settleAll env s) t ∧ complete env s = checkMods (addOperators env t) := by
  have himplicit : Quiet (settleAll env s) (if env.config.addDefaultConstructors then
      addImplicitAll (settleAll env s) else settleAll env s) := by
    split
    · exact addImplicitAll_quiet _
    · exact .refl _
  have hentries := himplicit.trans (checkEntries_quiet _)
  exact ⟨_, (hentries.trans (markHashable_quiet env _)).trans (markPrintable_quiet env _), rfl⟩

/-- Once the bases are resolved, completion is quiet. -/
theorem complete_quiet (env : Env) (s : State) : Quiet (settleAll env s) (complete env s) := by
  obtain ⟨t, ht, heq⟩ := complete_eq env s
  rw [heq]
  exact (ht.trans (addOperators_quiet env t)).warnAll _

/-! ### What follows the sorting -/

theorem linkCopies_quiet (classes : List ClassId) (s : State) :
    Quiet s (linkCopies classes s) := by
  refine Quiet.foldl (fun t i => ?_) classes s
  refine Quiet.trans (t := { t with store := markClonable _ t.store i }) ?_
    (.foldl (fun u k => ?_) _ _)
  · unfold markClonable
    split
    · exact (Quiet.refl t).modifyClass i fun _ => rfl
    · exact .refl t
  · unfold addConversion
    split
    · exact .refl u
    · split
      · exact .refl u
      · split
        · exact (Quiet.refl u).modifyClass _ fun c => c.ties_addExternalConversion _
        · exact .refl u

theorem settlePoliciesAll_quiet (classes : List ClassId) (s : State) :
    Quiet s (settlePoliciesAll classes s) := by
  have hstore : Quiet s { s with store := classes.foldl (settleClassPolicies s.db) s.store } := by
    refine Quiet.foldlStore (fun t i => ?_) classes s
    exact (Quiet.refl t).modifyClass i (f := fun c => { c with
      functions := c.functions.map (settlePolicies s.db (classPolicies t.store i)) }) fun _ => rfl
  exact hstore.trans (.of_eq rfl rfl)

end Assembly
end BindingModel
