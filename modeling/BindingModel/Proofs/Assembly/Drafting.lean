import BindingModel.Proofs.Assembly.OperatorMarks
import BindingModel.Proofs.Assembly.Siblings

/-! The ways in which a class gets its functions, and what they make of those that the header declares
and the rules add. -/
namespace BindingModel
open Api Header

namespace Api.ClassStore

/-- A property of all functions together with their classes. -/
def AllFunctions (Q : BoundClass → Function → Prop) (s : ClassStore) : Prop :=
  ∀ i, ∀ f ∈ (s.get i).functions, Q (s.get i) f

theorem AllFunctions.create {Q : BoundClass → Function → Prop} {s : ClassStore}
    (h : s.AllFunctions Q) {c : BoundClass} (hc : c.functions = []) :
    (s.create c).2.AllFunctions Q := by
  intro j g hg
  rcases s.get_create c j with hj | hj
  · rw [hj] at hg ⊢
    exact h j g hg
  · rw [hj, hc] at hg
    cases hg

end Api.ClassStore

namespace Assembly

/-- Each way in which a class gets a function makes one with the property: a declaration or a rule of
the database gives it, it is implicit, it is taken over from a template, or it is a free operator.
Modifications are copied in between; `used` are the rules with all copies. What classes get besides
functions does not count, nor do the policies of a function. -/
structure Upheld (env : Env) (db used : Database) (Q : BoundClass → Function → Prop) : Prop where
  head : ∀ {c d : BoundClass} {f : Function}, d.head = c.head → Q c f → Q d f
  settle : ∀ {c : BoundClass} {f : Function} (p : Policies), Q c f → Q c (f.settle p)
  declared : ∀ {s : State} {path : List String} {i : ClassId} {d : FunctionDecl} {f : Function},
    db.SameMods s.db → s.store.released = [] → i < s.store.classes.size →
      memberOf env path i s d = some f → Q (s.store.get i) f
  added : ∀ {s : State} {path : List String} {i : ClassId} {a : AddedFunction} {f : Function}
    {ws : List Warning}, Draft.added ⟨s.lookup env, path, some i⟩ a = .ok (f, ws) →
      Q (s.store.get i) f
  implicit : ∀ i c, Q c (implicitConstructor i c)
  implicitCopy : ∀ i c isPrivate, Q c (implicitCopy i c isPrivate)
  taken : ∀ {bindings : List BoundType} {maxDepth : Nat} {c template : BoundClass}
    {f g : Function}, Q template f → NamesTemplate c template →
      TakenOver db used bindings maxDepth c template f g → Q c g
  operator : ∀ {c : BoundClass} {f : Function}, OperatorOf env db used c f → Q c f

section
variable {env : Env} {db used : Database} {Q : BoundClass → Function → Prop}
  (hQ : Upheld env db used Q)
include hQ

/-! ### Changes of the classes -/

namespace Upheld
variable {s t : ClassStore}

theorem of_core (h : s.AllFunctions Q) (hcore : ∀ c, (t.get c).core = (s.get c).core) :
    t.AllFunctions Q := by
  intro c f hf
  rw [BoundClass.functions_eq_of_core (hcore c)] at hf
  exact hQ.head (BoundClass.head_eq_of_core (hcore c)) (h c f hf)

theorem modify (h : s.AllFunctions Q) (i : ClassId) {f : BoundClass → BoundClass}
    (hhead : ∀ c : BoundClass, (f c).head = c.head)
    (hf : i < s.classes.size → ∀ g ∈ (f (s.get i)).functions, Q (s.get i) g) :
    (s.modify i f).AllFunctions Q := by
  intro j g hg
  rw [ClassStore.get_modify] at hg ⊢
  split at hg
  · next hij =>
    obtain ⟨rfl, hlt⟩ := hij
    rw [if_pos ⟨rfl, hlt⟩]
    exact hQ.head (hhead _) (hf hlt g hg)
  · next hij =>
    rw [if_neg hij]
    exact h j g hg

theorem edit (h : s.AllFunctions Q) (i : ClassId) {f : BoundClass → BoundClass}
    (hf : ∀ c : BoundClass, (f c).core = c.core) : (s.modify i f).AllFunctions Q := by
  refine hQ.modify h i (fun c => BoundClass.head_eq_of_core (hf c)) fun _ g hg => ?_
  rw [BoundClass.functions_eq_of_core (hf _)] at hg
  exact h i g hg

theorem addFunction (h : s.AllFunctions Q) (i : ClassId) {f : BoundClass → Function}
    (hf : i < s.classes.size → Q (s.get i) (f (s.get i))) :
    (s.modify i fun c => c.addFunction (f c)).AllFunctions Q := by
  refine hQ.modify h i (fun _ => rfl) fun hlt g hg => ?_
  rcases List.mem_append.mp hg with hg | hg
  · exact h i g hg
  · obtain rfl := List.mem_singleton.mp hg
    exact hf hlt

end Upheld

end

/-! ### Declarations and what the rules add -/

/-- Nothing was modified yet, no class is lost, and all functions have the property. -/
structure Drafted (db : Database) (Q : BoundClass → Function → Prop) (s : State) : Prop where
  mods : db.SameMods s.db
  released : s.store.released = []
  functions : s.store.AllFunctions Q

/-- The property is kept. -/
def Keeps (I : State → Prop) (s t : State) : Prop := I s → I t

instance (I : State → Prop) : Std.Refl (Keeps I) := ⟨fun _ => id⟩

instance (I : State → Prop) : IsTrans State (Keeps I) := ⟨fun _ _ _ h k => k ∘ h⟩

namespace Drafted
variable {db : Database} {Q : BoundClass → Function → Prop} {s t : State}

theorem initial (db : Database) (Q : BoundClass → Function → Prop) : Drafted db Q { db } := by
  refine ⟨.refl db, rfl, fun i f hf => ?_⟩
  rw [ClassStore.get_of_size_le _ (Nat.zero_le i)] at hf
  cases hf

theorem frame (h : Drafted db Q s) (hstore : t.store = s.store) (hmods : s.db.SameMods t.db) :
    Drafted db Q t :=
  ⟨h.mods.trans hmods, hstore ▸ h.released, hstore ▸ h.functions⟩

theorem foldl {α : Type} {f : State → α → State}
    (hf : ∀ s a, Drafted db Q s → Drafted db Q (f s a)) (l : List α) (h : Drafted db Q s) :
    Drafted db Q (l.foldl f s) :=
  List.foldlRecOn l f h fun t ht a _ => hf t a ht

theorem modifyDatabase (h : Drafted db Q s) {f : Database → Database}
    (hf : s.db.SameMods (f s.db)) : Drafted db Q (s.modifyDatabase f) :=
  h.frame rfl hf

theorem reject (h : Drafted db Q s) (c : RejectCategory) (r : RejectRecord) :
    Drafted db Q (s.reject c r) :=
  h.frame rfl (.refl s.db)

theorem warnAll (h : Drafted db Q s) (ws : List Warning) : Drafted db Q (s.warnAll ws) := by
  refine h.frame (s.store_warnAll ws) ?_
  rw [s.db_warnAll ws]
  exact .refl s.db

theorem warnIf (h : Drafted db Q s) (b : Bool) (w : Warning) : Drafted db Q (s.warnIf b w) := by
  unfold State.warnIf
  split
  · exact h.warnAll [w]
  · exact h

theorem applyInclude (h : Drafted db Q s) (env : Env) (e : Entry) (file? : Option String) :
    Drafted db Q (s.applyInclude env e file?) := by
  unfold State.applyInclude
  split
  · exact h.modifyDatabase (.of_rules (.setInclude s.db e _))
  · exact h

theorem addClass (h : Drafted db Q s) (i : ClassId) : Drafted db Q (s.addClass i) := by
  refine h.frame (State.store_addClass s i) ?_
  unfold State.addClass
  split
  · split <;> exact .refl s.db
  · split <;> exact .refl s.db
  · exact .refl s.db

theorem createClass (h : Drafted db Q s) {c : BoundClass} (hc : c.functions = []) :
    Drafted db Q (s.createClass c).2 :=
  ⟨h.mods, h.released, h.functions.create hc⟩

end Drafted

section
variable {env : Env} {db used : Database} {Q : BoundClass → Function → Prop} {s : State} {p : Place}

theorem registerEnumValues_sameMods (d : EnumDecl) (e : Entry) (scope : String)
    (db : Database) : db.SameMods (registerEnumValues d e scope db) := by
  refine .foldl (fun db v => ?_) d.enumerators db
  have hvalue : db.SameMods
      (registerEnumValue db (scope ++ v.name) (toString v.value) (some e)) := by
    unfold registerEnumValue
    split
    · exact .refl db
    · exact .add db _ _
  dsimp only
  split
  · exact hvalue.trans (.of_rules (.setNullValue _ e v.name))
  · exact hvalue

theorem enumEntry_drafted (h : Drafted db Q s) (d : EnumDecl) (scope : String) :
    Drafted db Q (enumEntry s d scope).2.2 := by
  unfold enumEntry
  dsimp only
  split
  · split
    · exact h
    · exact h.frame rfl (.add s.db _ _)
  · split
    · split <;> exact h
    · exact h

theorem scanEnum_drafted (env : Env) (h : Drafted db Q s) (enclosing? : Option ClassId) (d : EnumDecl) :
    Drafted db Q (scanEnum env s enclosing? d).2 := by
  unfold scanEnum
  dsimp only
  generalize ((enclosing?.map fun c => (s.store.get c).qualifiedName).getD "") = scope
  have hentry := enumEntry_drafted h d scope
  generalize enumEntry s d scope = found at hentry
  obtain ⟨found?, name, t⟩ := found
  dsimp only at hentry ⊢
  split
  · split
    · next e => exact (hentry.modifyDatabase (.setCodegen t.db e noCode)).reject .enums _
    · exact hentry.reject .enums _
  · split
    · exact (hentry.warnIf _ _).reject .enums _
    · next e _ =>
      refine Drafted.applyInclude (Drafted.modifyDatabase ?_ ?_) env e d.file?
      · split
        · exact hentry.modifyDatabase (.setCodegen t.db e noCode)
        · exact hentry
      · exact registerEnumValues_sameMods d e _ _

theorem addGlobalEnums_drafted (h : Drafted db Q s) : Drafted db Q (addGlobalEnums env s) := by
  refine h.foldl (fun t d ht => ?_) _
  have hscan := scanEnum_drafted env ht none d
  split
  · next e u hu =>
    rw [hu] at hscan
    split
    · exact hscan.frame rfl (.refl u.db)
    · exact hscan
  · next u hu =>
    rwa [hu] at hscan

variable (hQ : Upheld env db used Q)
include hQ

theorem Drafted.edit (h : Drafted db Q s) (i : ClassId) {f : BoundClass → BoundClass}
    (hf : ∀ c : BoundClass, (f c).core = c.core) : Drafted db Q (s.modifyClass i f) :=
  ⟨h.mods, h.released, hQ.edit h.functions i hf⟩

theorem Drafted.addFunction (h : Drafted db Q s) {i : ClassId} {f : Function}
    (hf : i < s.store.classes.size → Q (s.store.get i) f) :
    Drafted db Q (s.modifyClass i (·.addFunction f)) :=
  ⟨h.mods, h.released, hQ.addFunction h.functions i hf⟩

theorem addEnums_drafted (h : Drafted db Q s) (c : ClassId) (enums : List EnumDecl) :
    Drafted db Q (addEnums env c enums s) := by
  refine h.foldl (fun t d ht => ?_) enums
  have hscan := scanEnum_drafted env ht (some c) d
  split
  · next e u hu =>
    rw [hu] at hscan
    exact hscan.edit hQ c fun _ => rfl
  · next u hu =>
    rwa [hu] at hscan

theorem addProperties_drafted (h : Drafted db Q s) (c : ClassId) (texts : List String) :
    Drafted db Q (addProperties env p c texts s) := by
  unfold addProperties
  exact ((h.warnAll _).warnAll _).edit hQ c fun _ => rfl

theorem adopt_drafted (h : Drafted db Q s) (parent c : ClassId) :
    Drafted db Q (adopt parent c s) := by
  have henclosed := h.edit hQ c (f := (·.setEnclosing parent)) fun _ => rfl
  have hinner := henclosed.edit hQ parent (f := fun x => { x with inner := x.inner ++ [c] })
    fun _ => rfl
  exact hinner.addClass c

/-- The steps keep what holds while functions are drafted. -/
abbrev Drafts (db : Database) (Q : BoundClass → Function → Prop) {α : Type} (m : Build α)
    (s : State) : Prop :=
  Outcome (Keeps (Drafted db Q)) (fun _ _ => True) m s

omit hQ in
/-- To make a function only warns. -/
theorem makeAdded_keeps {I : State → Prop} (hI : ∀ s ws, I s → I (s.warnAll ws))
    (class? : Option ClassId) (a : AddedFunction) :
    Outcome (Keeps I) (fun _ _ => True) (makeAdded env p class? a) s := by
  refine .get_bind ?_
  dsimp only
  split
  · exact .andThen (.set fun h => hI s _ h) fun _ _ => .pure _
  · exact .throw trivial

theorem fillAdded_drafts (c : ClassId) : Drafts db Q (fillAdded env p c) s := by
  refine .get_bind ?_
  dsimp only
  split
  · exact .pure _
  · have hmake : ∀ (a : AddedFunction) (t : State), Drafts db Q (makeAdded env p (some c) a) t :=
      fun a _ => makeAdded_keeps (fun _ ws h => h.warnAll ws) (some c) a
    refine Outcome.forM fun a _ t _ => (hmake a t).bind fun f u hrun => .modify ?_
    obtain ⟨ws, hadded, rfl⟩ := makeAdded_eq_ok hrun
    refine fun h => h.addFunction hQ fun _ => ?_
    rw [State.store_warnAll]
    exact hQ.added hadded

theorem declareTypedef_drafts (d : TypedefDecl) : Drafts db Q (declareTypedef env p d) s := by
  refine .get_bind ?_
  dsimp only
  split
  · next primitive _ =>
    split
    · split
      · exact .andThen (.pure _) fun _ _ => .pure _
      · refine .andThen (.modify fun h => ?_) fun _ _ => .pure _
        exact h.modifyDatabase (.of_rules (.setReferenced s.db primitive _))
    · exact .andThen (.pure _) fun _ _ => .pure _
  · split
    · exact .pure _
    · next entry _ =>
      refine .andThen (.set fun h => ?_) fun _ _ => .andThen (fillAdded_drafts hQ _) fun _ _ => .pure _
      exact (h.createClass rfl).applyInclude env entry d.file?

theorem declareTypedefs_drafts {file : ClassId → State → State}
    (hfile : ∀ c t, Drafted db Q t → Drafted db Q (file c t)) (l : List TypedefDecl) :
    Drafts db Q (declareTypedefs env p file l) s := by
  refine Outcome.forM fun d _ t _ => .andThen (declareTypedef_drafts hQ d) fun c? u => ?_
  cases c? with
  | none => exact .pure _
  | some c => exact .modify (hfile c u)

theorem adopted_drafts {d : Build (Option ClassId)} (parent : ClassId) (hd : Drafts db Q d s)
    {rest : Build Unit} (hrest : ∀ t, Drafts db Q rest t) :
    Drafts db Q (do
      match ← d with
      | some c => modify (adopt parent c)
      | none => pure ()
      rest) s := by
  refine hd.andThen fun c? t => ?_
  cases c? with
  | none => exact hrest t
  | some c => exact .andThen (.modify fun h => adopt_drafted hQ h parent c) fun _ u => hrest u

end

section
variable {env : Env} {db used : Database} {Q : BoundClass → Function → Prop}

mutual

theorem declareClass_drafts (hQ : Upheld env db used Q) (p : Place) (s : State) :
    (d : ClassDecl) → Drafts db Q (declareClass env p d) s
  | ⟨decls, classes, bases, templateParams, isFinal, properties⟩ => by
    unfold declareClass
    refine .get_bind ?_
    dsimp only
    split
    · exact .andThen (.modify fun h => h.reject .classes _) fun _ _ => .pure _
    · next entry _ =>
      refine .andThen (.set fun h => addEnums_drafted hQ (h.createClass rfl) _ _) fun _ t => ?_
      refine .andThen (declareInner_drafts hQ _ _ t classes) fun _ t => ?_
      refine .andThen (declareTypedefs_drafts hQ (fun c u hu => ?_) _) fun _ t => ?_
      · refine Drafted.addClass ?_ c
        exact hu.edit hQ c fun _ => rfl
      refine .andThen (.modify fun h => addProperties_drafted hQ h _ _) fun _ t => ?_
      refine .andThen (.modify fun h => ?_) fun _ _ => .pure _
      exact (h.applyInclude env entry decls.file?).frame rfl (.refl _)

theorem declareInner_drafts (hQ : Upheld env db used Q) (p : Place) (parent : ClassId) (s : State) :
    (l : List ClassDecl) → Drafts db Q (declareInner env p parent l) s
  | [] => .pure _
  | d :: ds =>
    adopted_drafts hQ parent (declareClass_drafts hQ p s d)
      fun t => declareInner_drafts hQ p parent t ds

end

mutual

theorem declareNamespace_drafts (hQ : Upheld env db used Q) (p : Place) (s : State) :
    (d : NamespaceDecl) → Drafts db Q (declareNamespace env p d) s
  | ⟨decls, classes, namespaces⟩ => by
    unfold declareNamespace
    refine .get_bind ?_
    dsimp only
    split
    · exact .andThen (.modify fun h => h.reject .classes _) fun _ _ => .pure _
    · exact .andThen (.modify fun h => h.warnAll [_]) fun _ _ => .pure _
    · next entry _ _ =>
      refine .andThen (.set fun h => addEnums_drafted hQ (h.createClass rfl) _ _) fun _ t => ?_
      refine .andThen (declareInner_drafts hQ _ _ t classes) fun _ t => ?_
      refine .andThen (declareTypedefs_drafts hQ (fun c u hu => adopt_drafted hQ hu _ c) _)
        fun _ t => ?_
      refine .andThen (declareNamespaces_drafts hQ _ _ t namespaces) fun _ t => ?_
      refine .andThen (.modify fun h => ?_) fun _ _ => .pure _
      exact (h.applyInclude env entry decls.file?).frame rfl (.refl _)

theorem declareNamespaces_drafts (hQ : Upheld env db used Q) (p : Place) (parent : ClassId) (s : State) :
    (l : List NamespaceDecl) → Drafts db Q (declareNamespaces env p parent l) s
  | [] => .pure _
  | d :: ds =>
    adopted_drafts hQ parent (declareNamespace_drafts hQ p s d)
      fun t => declareNamespaces_drafts hQ p parent t ds

end

variable (hQ : Upheld env db used Q)
include hQ

theorem declareRuleTypedefs_drafts (s : State) : Drafts db Q (declareRuleTypedefs env) s := by
  refine .get_bind (Outcome.forM fun e _ t _ => .get_bind ?_)
  dsimp only
  split
  · split
    · exact .pure _
    · refine .andThen (.set fun h => h.createClass rfl) fun _ _ => ?_
      exact .andThen (fillAdded_drafts hQ _) fun _ _ => .modify fun h => h.addClass _
  · exact .pure _

theorem declareAll_drafts (s : State) : Drafts db Q (declareAll env) s := by
  have hfile : ∀ {d : Build (Option ClassId)} {t : State}, Drafts db Q d t → Drafts db Q (do
      match ← d with
      | some c => modify (·.addClass c)
      | none => pure ()) t := by
    intro d t hd
    refine hd.andThen fun c? u => ?_
    cases c? with
    | none => exact .pure _
    | some c => exact .modify fun h => h.addClass c
  refine .andThen (.forM fun d _ t _ => hfile (declareClass_drafts hQ {} t d)) fun _ t => ?_
  refine .andThen (.forM fun d _ t _ => hfile (declareNamespace_drafts hQ {} t d)) fun _ t => ?_
  refine .andThen (.modify addGlobalEnums_drafted) fun _ t => ?_
  refine .andThen (.forM fun d _ t _ => hfile (declareTypedef_drafts hQ d)) fun _ t => ?_
  exact declareRuleTypedefs_drafts hQ t

/-! ### Members -/

theorem addField_drafted {s : State} (h : Drafted db Q s) (p : Place) (i : ClassId)
    (v : VariableDecl) : Drafted db Q (addField env p i s v) := by
  unfold addField
  dsimp only
  split
  · refine ⟨h.mods, h.released, hQ.modify h.functions i (fun _ => rfl) fun _ g hg => ?_⟩
    exact h.functions i g hg
  · exact h
  · exact h.reject .fields _
  · exact h.warnIf _ _

omit hQ in
theorem judge_drafted (env : Env) {s : State} (h : Drafted db Q s) (p : Place) (d : FunctionDecl) :
    Drafted db Q (s.judge env p d).2 := by
  unfold State.judge
  dsimp only
  split
  · exact (h.warnAll _).reject .functions _
  · exact h.warnAll _

theorem addMember_drafted {s : State} (h : Drafted db Q s) (path : List String) (i : ClassId)
    (d : FunctionDecl) : Drafted db Q (addMember env ⟨some i, path⟩ i s d) := by
  have hjudged := judge_drafted env h ⟨some i, path⟩ d
  have hstore := store_judge s env ⟨some i, path⟩ d
  have hsame := judge_surroundings i s env ⟨some i, path⟩ d
  have hmember : ∀ f, memberOf env path i s d = some f → i < s.store.classes.size →
      Q (s.store.get i) f := fun f hf hlt => hQ.declared h.mods h.released hlt hf
  unfold addMember
  dsimp only
  split
  · next t ht =>
    rwa [ht] at hjudged
  · next t ht =>
    rw [ht] at hjudged
    exact hjudged.edit hQ i fun _ => rfl
  · next f t ht =>
    rw [ht] at hjudged hstore hsame
    have hmarked : ∀ marks, Drafted db Q (t.modifyClass i fun c =>
        { c with attrs := c.attrs.insertAll marks }) :=
      fun _ => hjudged.edit hQ i fun _ => rfl
    split
    · exact hmarked _
    · next hkind =>
      split
      · exact hmarked _
      · next hpriv =>
        have hstore : t.store = s.store := hstore
        refine (hmarked _).addFunction hQ fun hlt => hQ.head ?_ (hmember _ ?_ ?_)
        · show ((t.store.modify i _).get i).head = _
          rw [ClassStore.get_modify, hstore]
          split <;> rfl
        · unfold memberOf
          rw [ht]
          dsimp only
          rw [if_neg (not_or.mpr ⟨hkind, hpriv⟩), hsame.finishMember, hstore]
        · have hlt : i < (t.store.modify i _).classes.size := hlt
          rwa [ClassStore.size_modify, hstore] at hlt

theorem addMembers_drafts {s : State} (path : List String) (i : ClassId) (d : Declarations) :
    Drafts db Q (addMembers env ⟨some i, path⟩ i d) s := by
  refine .andThen (.modify fun h => h.foldl (fun t v ht => addField_drafted hQ ht _ i v) _)
    fun _ t => ?_
  refine .andThen (.modify fun h => h.foldl (fun u f hu => addMember_drafted hQ hu path i f) _)
    fun _ u => ?_
  exact fillAdded_drafts hQ i

end

section
variable {env : Env} {db used : Database} {Q : BoundClass → Function → Prop}

mutual

theorem fillClass_drafts (hQ : Upheld env db used Q) (p : Place) (s : State) :
    (d : ClassDecl) → Drafts db Q (fillClass env p d) s
  | ⟨decls, classes, _, _, _, _⟩ => by
    unfold fillClass
    refine .get_bind ?_
    split
    · exact .pure _
    · refine .andThen (addMembers_drafts hQ _ _ decls) fun _ t => ?_
      exact fillClasses_drafts hQ _ t classes

theorem fillClasses_drafts (hQ : Upheld env db used Q) (p : Place) (s : State) :
    (l : List ClassDecl) → Drafts db Q (fillClasses env p l) s
  | [] => .pure _
  | d :: ds => .andThen (fillClass_drafts hQ p s d) fun _ t => fillClasses_drafts hQ p t ds

end

mutual

theorem fillNamespace_drafts (hQ : Upheld env db used Q) (p : Place) (s : State) :
    (d : NamespaceDecl) → Drafts db Q (fillNamespace env p d) s
  | ⟨decls, classes, namespaces⟩ => by
    unfold fillNamespace
    refine .get_bind ?_
    split
    · exact .pure _
    · refine .andThen (addMembers_drafts hQ _ _ decls) fun _ t => ?_
      refine .andThen (fillClasses_drafts hQ _ t classes) fun _ u => ?_
      exact fillNamespaces_drafts hQ _ u namespaces

theorem fillNamespaces_drafts (hQ : Upheld env db used Q) (p : Place) (s : State) :
    (l : List NamespaceDecl) → Drafts db Q (fillNamespaces env p l) s
  | [] => .pure _
  | d :: ds => .andThen (fillNamespace_drafts hQ p s d) fun _ t => fillNamespaces_drafts hQ p t ds

end

theorem addGlobalFunction_drafted {s : State} (h : Drafted db Q s) (d : FunctionDecl) :
    Drafted db Q (addGlobalFunction env s d) := by
  have hjudged := judge_drafted env h {} d
  unfold addGlobalFunction
  split
  · exact h
  · split
    · exact h
    · next entry _ =>
      split
      · next f t ht =>
        rw [ht] at hjudged
        dsimp only
        split
        · exact (hjudged.applyInclude env entry d.file?).frame rfl (.refl _)
        · exact hjudged
      · next t _ ht =>
        rwa [ht] at hjudged

theorem fillAll_drafts (hQ : Upheld env db used Q) (s : State) : Drafts db Q (fillAll env) s := by
  refine .andThen (fillClasses_drafts hQ {} s _) fun _ t => ?_
  refine .andThen (fillNamespaces_drafts hQ {} t _) fun _ u => ?_
  exact .modify fun h => h.foldl (fun v d hv => addGlobalFunction_drafted hv d) _

end

end Assembly
end BindingModel
