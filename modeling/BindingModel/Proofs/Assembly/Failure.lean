import BindingModel.Proofs.Assembly.Outcome
import BindingModel.Proofs.Assembly.Passes
import BindingModel.Proofs.Error
import BindingModel.Proofs.Graph.Dependencies

/-! What makes an assembly fail: a function that the rules add and whose types they do not know, or
classes that need one another. -/
namespace BindingModel
open Api Header

/-- The types that an added function is written with. -/
def AddedFunction.types (a : AddedFunction) : List TypeExpr := a.returnType :: a.args.map (·.type)

/-- Those of the types that are bound, in their order. -/
def AddedFunction.boundTypes (a : AddedFunction) : List TypeExpr :=
  (if a.returnType.isVoid then [] else [a.returnType]) ++ a.args.map (·.type)

theorem AddedFunction.mem_types_of_bound {a : AddedFunction} {t : TypeExpr}
    (h : t ∈ a.boundTypes) : t ∈ a.types := by
  unfold boundTypes at h
  unfold types
  split at h <;> simp_all

/-- The functions that the rules add to the class of an entry. -/
def Entry.added (e : Entry) : List AddedFunction := (e.rules?.map (·.added)).getD []

theorem Entry.isComplex_of_added {e : Entry} {a : AddedFunction} (h : a ∈ e.added) :
    e.isComplex = true := by
  unfold Entry.added at h
  unfold Entry.isComplex
  cases hr : e.rules? with
  | none => simp [hr] at h
  | some rules => rfl

theorem Api.ClassStore.lt_size_of_added {s : ClassStore} {i : ClassId} {a : AddedFunction}
    (h : a ∈ (s.get i).entry.added) : i < s.classes.size := by
  by_contra hi
  unfold ClassStore.get at h
  rw [Array.getElem?_eq_none (Nat.not_lt.mp hi)] at h
  cases h

namespace Assembly

/-! ### Added functions -/

namespace Draft
variable {d : Draft} {e : Error}

/-- The type is not found among the rules. -/
def missing (d : Draft) (t : TypeExpr) : Error :=
  .typeNotFound t.qualifiedName (d.lookup.db.candidates t.localName)

theorem bindNamed_eq_error {t : TypeExpr} (h : d.bindNamed t = .error e) :
    ∃ cause, d.bindType t = .error cause ∧ e = d.missing t := by
  unfold bindNamed at h
  split at h
  · cases h
  · next cause hcause => exact ⟨cause, hcause, (Except.error.inj h).symm⟩

theorem bindType_of_bindNamed {t : TypeExpr} {b : BoundType} (h : d.bindNamed t = .ok b) :
    d.bindType t = .ok b := by
  unfold bindNamed at h
  split at h
  · next hb => exact hb.trans h
  · cases h

/-- The type is the first of the types that cannot be bound. -/
def FirstUnbound (d : Draft) (types : List TypeExpr) (t : TypeExpr) (cause : Error) : Prop :=
  ∃ before after, types = before ++ t :: after ∧ (∀ u ∈ before, ∃ b, d.bindType u = .ok b) ∧
    d.bindType t = .error cause

theorem FirstUnbound.mem {types : List TypeExpr} {t : TypeExpr} {cause : Error}
    (h : d.FirstUnbound types t cause) : t ∈ types := by
  obtain ⟨before, after, rfl, -⟩ := h
  simp

theorem FirstUnbound.cons {types : List TypeExpr} {t u : TypeExpr} {cause : Error} {b : BoundType}
    (hu : d.bindType u = .ok b) (h : d.FirstUnbound types t cause) :
    d.FirstUnbound (u :: types) t cause := by
  obtain ⟨before, after, rfl, hbefore, ht⟩ := h
  exact ⟨u :: before, after, rfl, List.forall_mem_cons.mpr ⟨⟨b, hu⟩, hbefore⟩, ht⟩

theorem bindAdded_eq_error {i : Nat} {args : List AddedArgument}
    (h : d.bindAdded i args = .error e) :
    ∃ t cause, d.FirstUnbound (args.map (·.type)) t cause ∧ e = d.missing t := by
  induction args generalizing i with
  | nil => cases h
  | cons a args ih =>
    unfold bindAdded at h
    rcases Error.bind_eq_error h with h | ⟨type, htype, h⟩
    · obtain ⟨cause, hcause, he⟩ := bindNamed_eq_error h
      exact ⟨a.type, cause, ⟨[], _, rfl, by simp, hcause⟩, he⟩
    · rcases Error.bind_eq_error h with h | ⟨rest, -, h⟩
      · obtain ⟨t, cause, ht, he⟩ := ih h
        exact ⟨t, cause, .cons (bindType_of_bindNamed htype) ht, he⟩
      · cases h

/-- Only a type that is not found keeps a function from being made. -/
theorem added_eq_error {a : AddedFunction} (h : d.added a = .error e) :
    ∃ t cause, d.FirstUnbound a.boundTypes t cause ∧ e = d.missing t := by
  -- With or without a return type to bind, the arguments come next and nothing fails after them.
  have hargs : ∀ k : List Argument → Except Error (Function × List Warning),
      (∀ args, ∃ r, k args = .ok r) → (d.bindAdded 0 a.args >>= k) = .error e →
        ∃ t cause, d.FirstUnbound (a.args.map (·.type)) t cause ∧ e = d.missing t := by
    intro k hk h
    rcases Error.bind_eq_error h with h | ⟨args, -, h⟩
    · exact bindAdded_eq_error h
    · obtain ⟨r, hr⟩ := hk args
      rw [hr] at h
      cases h
  unfold AddedFunction.boundTypes
  unfold added at h
  dsimp only at h
  split at h
  · next hvoid =>
    rw [if_pos hvoid, List.nil_append]
    refine hargs _ (fun args => ?_) h
    split <;> exact ⟨_, rfl⟩
  · next hvoid =>
    rw [if_neg hvoid, List.singleton_append]
    cases hret : d.bindNamed a.returnType with
    | error e' =>
      rw [hret] at h
      obtain rfl := Except.error.inj h
      obtain ⟨cause, hcause, he⟩ := bindNamed_eq_error hret
      exact ⟨a.returnType, cause, ⟨[], _, rfl, by simp, hcause⟩, he⟩
    | ok type =>
      rw [hret] at h
      obtain ⟨t, cause, ht, he⟩ := hargs _ (fun args => by split <;> exact ⟨_, rfl⟩) h
      exact ⟨t, cause, ht.cons (bindType_of_bindNamed hret), he⟩

end Draft

/-- The rules add the function to the scope of that name: to a class, or to the global scope. -/
def AddedTo (s : State) (a : AddedFunction) (scope : String) : Prop :=
  (∃ i, a ∈ (s.store.get i).entry.added ∧ scope = (s.store.get i).qualifiedName) ∨
    a ∈ s.db.globalAdded ∧ scope = "<global>"

/-- A type of a function that the rules add is not found among the rules. -/
def UnknownAdded (e : Error) (s : State) : Prop :=
  ∃ a scope, AddedTo s a scope ∧ ∃ t ∈ a.types,
    e = .addedFunction a.name scope (.typeNotFound t.qualifiedName (s.db.candidates t.localName))

/-- The functions that the rules add to a class, or to the global scope. -/
def State.added (s : State) : Option ClassId → List AddedFunction
  | some i => (s.store.get i).entry.added
  | none => s.db.globalAdded

def State.scopeName (s : State) : Option ClassId → String
  | some i => (s.store.get i).qualifiedName
  | none => "<global>"

/-- A function that the rules add, with the first of its types that cannot be bound. -/
structure Refusal (env : Env) (s : State) where
  class? : Option ClassId
  path : List String
  added : AddedFunction
  type : TypeExpr
  cause : Error
  mem : added ∈ s.added class?
  unbound : Draft.FirstUnbound ⟨s.lookup env, path, class?⟩ added.boundTypes type cause

namespace Refusal
variable {env : Env} {s : State}

/-- What is tried with the types of the function. -/
def draft (r : Refusal env s) : Draft := ⟨s.lookup env, r.path, r.class?⟩

def error (r : Refusal env s) : Error :=
  .addedFunction r.added.name (s.scopeName r.class?)
    (.typeNotFound r.type.qualifiedName (s.db.candidates r.type.localName))

theorem addedTo (r : Refusal env s) : AddedTo s r.added (s.scopeName r.class?) := by
  have hmem := r.mem
  cases hclass : r.class? with
  | none =>
    rw [hclass] at hmem
    exact .inr ⟨hmem, rfl⟩
  | some i =>
    rw [hclass] at hmem
    exact .inl ⟨i, hmem, rfl⟩

theorem unknownAdded (r : Refusal env s) : UnknownAdded r.error s :=
  ⟨r.added, s.scopeName r.class?, r.addedTo, r.type,
    AddedFunction.mem_types_of_bound r.unbound.mem, rfl⟩

end Refusal

def RefusedAdded (env : Env) (e : Error) (s : State) : Prop := ∃ r : Refusal env s, e = r.error

section
variable {h : Header} {env : Env} {p : Place} {s : State}

theorem makeAdded_outcome {class? : Option ClassId} {a : AddedFunction}
    (ha : a ∈ s.added class?) :
    Outcome (Evolves h) (RefusedAdded env) (makeAdded env p class? a) s := by
  refine .get_bind ?_
  dsimp only
  split
  · exact .andThen (.set ((Evolves.refl s).warnAll _)) fun _ _ => .pure _
  · next e he =>
    obtain ⟨t, cause, ht, rfl⟩ := Draft.added_eq_error he
    refine .throw ⟨⟨class?, p.path, a, t, cause, ha, ht⟩, ?_⟩
    cases class? <;> rfl

theorem makeAdded_eq_ok {class? : Option ClassId} {a : AddedFunction} {f : Function} {t : State}
    (hrun : makeAdded env p class? a s = .ok f t) : ∃ ws,
      Draft.added ⟨s.lookup env, p.path, class?⟩ a = .ok (f, ws) ∧ t = s.warnAll ws := by
  obtain ⟨_, _, hget, hrun⟩ := Build.bind_eq_ok.mp hrun
  cases hget
  cases ha : Draft.added ⟨s.lookup env, p.path, class?⟩ a with
  | error e =>
    simp only [ha] at hrun
    cases hrun
  | ok r =>
    simp only [ha] at hrun
    obtain ⟨_, _, hset, hrun⟩ := Build.bind_eq_ok.mp hrun
    cases hset
    cases hrun
    exact ⟨r.2, rfl, rfl⟩

theorem makeAdded_made {class? : Option ClassId} {a : AddedFunction} {f : Function} {t : State}
    (hrun : makeAdded env p class? a s = .ok f t) :
    f.declaring? = class? ∧ f.implementing? = class? ∧ f.kind ≠ .destructor ∧
      Labelled f.args := by
  obtain ⟨ws, hadded, -⟩ := makeAdded_eq_ok hrun
  exact Draft.added_made hadded

theorem fillAdded_outcome (c : ClassId) :
    Outcome (Evolves h) (RefusedAdded env) (fillAdded env p c) s := by
  refine .get_bind ?_
  dsimp only
  split
  · exact .pure _
  · next rules hr =>
    refine Outcome.forM fun a ha t ht => ?_
    have hmem : a ∈ (s.store.get c).entry.added := by simpa [Entry.added, hr] using ha
    have hentry := BoundClass.entry_eq_of_head (ht.head c (ClassStore.lt_size_of_added hmem))
    have hadd : a ∈ t.added (some c) := by
      rw [State.added]
      rwa [hentry]
    refine .bind (makeAdded_outcome hadd) fun f u hrun => .modify ?_
    obtain ⟨hdeclaring, himplementing, hkind, hlabelled⟩ := makeAdded_made hrun
    exact (Evolves.refl u).addMember c ⟨hdeclaring, himplementing, hkind, hlabelled⟩

theorem fillGlobalAdded_outcome :
    Outcome (Evolves h) (RefusedAdded env) (fillGlobalAdded env) s := by
  refine .get_bind (Outcome.forM fun a ha t ht => ?_)
  have hmem : a ∈ t.added none := by
    rw [State.added]
    rwa [ht.db.frame.2]
  refine .bind (makeAdded_outcome hmem) fun f u hrun => .modify ?_
  obtain ⟨hdeclaring, himplementing, -, hlabelled⟩ := makeAdded_made hrun
  obtain ⟨ws, hadded, -⟩ := makeAdded_eq_ok hrun
  exact (Evolves.refl u).step (.addFree ⟨hdeclaring, himplementing, hlabelled⟩
    (.inr (Draft.unmarked_added hadded)))

/-! ### Declarations -/

theorem describes_of_classEntry {db : Database} {name : String} {e : Entry}
    (h : classEntry db name = .ok e) : db.Describes e := by
  unfold classEntry at h
  split at h
  · cases h
  · split at h
    · next d hd =>
      split at h
      · cases h
      · obtain rfl := Except.ok.inj h
        exact Database.describes_of_named (List.mem_of_find?_eq_some hd)
    · split at h <;> cases h

theorem declareTypedef_outcome (d : TypedefDecl) :
    Outcome (Evolves h) (RefusedAdded env) (declareTypedef env p d) s := by
  refine .get_bind ?_
  dsimp only
  split
  · next primitive _ =>
    split
    · split
      · exact .andThen (.pure _) fun _ _ => .pure _
      · refine .andThen (.modify ?_) fun _ _ => .pure _
        exact (Evolves.refl s).modifyDatabase (.step (.setReferenced primitive _))
    · exact .andThen (.pure _) fun _ _ => .pure _
  · split
    · exact .pure _
    · next entry hentry =>
      have hdesc := Database.describes_of_named (List.mem_of_find?_eq_some hentry)
      have hnew := (Evolves.refl (h := h) s).createClass (c := .typedef entry d.target.text)
        hdesc rfl (.of_nil rfl)
      refine .andThen (.set (hnew.applyInclude env entry d.file?)) fun _ _ => ?_
      exact .andThen (fillAdded_outcome _) fun _ _ => .pure _

theorem declareTypedefs_outcome {file : ClassId → State → State}
    (hfile : ∀ c t, Evolves h t (file c t)) (l : List TypedefDecl) :
    Outcome (Evolves h) (RefusedAdded env) (declareTypedefs env p file l) s := by
  refine Outcome.forM fun d _ t _ => .andThen (declareTypedef_outcome d) fun c? u => ?_
  cases c? with
  | none => exact .pure _
  | some c => exact .modify (hfile c u)

theorem adopted_outcome {d : Build (Option ClassId)} (parent : ClassId)
    (hd : Outcome (Evolves h) (RefusedAdded env) d s) {rest : Build Unit}
    (hrest : ∀ t, Outcome (Evolves h) (RefusedAdded env) rest t) :
    Outcome (Evolves h) (RefusedAdded env) (do
      match ← d with
      | some c => modify (adopt parent c)
      | none => pure ()
      rest) s := by
  refine hd.andThen fun c? t => ?_
  cases c? with
  | none => exact hrest t
  | some c => exact .andThen (.modify (adopt_evolves parent c t)) fun _ u => hrest u

end

mutual

theorem declareClass_outcome {h : Header} (env : Env) (p : Place) (s : State) :
    (d : ClassDecl) → (∀ e, (Scope.ofClass d).DeclaresEnum e → h.DeclaresEnum e) →
      Outcome (Evolves h) (RefusedAdded env) (declareClass env p d) s
  | ⟨decls, classes, bases, templateParams, isFinal, properties⟩, hd => by
    unfold declareClass
    refine .get_bind ?_
    dsimp only
    split
    · exact .andThen (.modify ((Evolves.refl s).reject .classes _)) fun _ _ => .pure _
    · next entry he =>
      have hnew := (Evolves.refl (h := h) s).createClass
        (c := {
          entry
          attrs := (FlagSet.ofList [.pub]).insertIf isFinal .finalCpp
            |>.insertIf (entry.rules?.any (·.isStream)) .stream
          baseNames := (bases.filter (·.access == .pub)).map (·.name)
          templateParams := templateParams.mapIdx fun i n => .placeholder n i })
        (describes_of_classEntry he) rfl (.of_mapIdx rfl)
      have henums : ∀ e ∈ decls.enums, h.DeclaresEnum e := fun e he => hd e (.here he)
      refine .andThen (.set (hnew.trans (addEnums_evolves env _ henums _))) fun _ t => ?_
      refine .andThen (declareInner_outcome env _ _ t classes
        fun c hc e he => hd e (.inClass hc he)) fun _ t => ?_
      refine .andThen (declareTypedefs_outcome (fun c u => ?_) _) fun _ t => ?_
      · refine Evolves.addClass ?_ c
        exact (Evolves.refl u).modifyClass c fun _ => rfl
      refine .andThen (.modify (addProperties_evolves env _ _ properties t)) fun _ t => ?_
      refine .andThen (.modify ?_) fun _ _ => .pure _
      exact ((Evolves.refl t).applyInclude env entry decls.file?).aside rfl rfl rfl

theorem declareInner_outcome {h : Header} (env : Env) (p : Place) (parent : ClassId) (s : State) :
    (l : List ClassDecl) →
      (∀ d ∈ l, ∀ e, (Scope.ofClass d).DeclaresEnum e → h.DeclaresEnum e) →
      Outcome (Evolves h) (RefusedAdded env) (declareInner env p parent l) s
  | [], _ => .pure _
  | d :: ds, hl =>
    adopted_outcome parent (declareClass_outcome env p s d (hl d List.mem_cons_self))
      fun t => declareInner_outcome env p parent t ds fun c hc => hl c (List.mem_cons_of_mem d hc)

end

mutual

theorem declareNamespace_outcome {h : Header} (env : Env) (p : Place) (s : State) :
    (d : NamespaceDecl) → (∀ e, (Scope.ofNamespace d).DeclaresEnum e → h.DeclaresEnum e) →
      Outcome (Evolves h) (RefusedAdded env) (declareNamespace env p d) s
  | ⟨decls, classes, namespaces⟩, hd => by
    unfold declareNamespace
    refine .get_bind ?_
    dsimp only
    split
    · exact .andThen (.modify ((Evolves.refl s).reject .classes _)) fun _ _ => .pure _
    · exact .andThen (.modify ((Evolves.refl s).warn _)) fun _ _ => .pure _
    · next entry _ he =>
      have hdesc := Database.describes_of_named (List.mem_of_find?_eq_some he)
      have hnew := (Evolves.refl (h := h) s).createClass (c := { entry }) hdesc rfl
        (.of_nil rfl)
      have henums : ∀ e ∈ decls.enums, h.DeclaresEnum e := fun e he => hd e (.here he)
      refine .andThen (.set (hnew.trans (addEnums_evolves env _ henums _))) fun _ t => ?_
      refine .andThen (declareInner_outcome env _ _ t classes
        fun c hc e he => hd e (.inClass hc he)) fun _ t => ?_
      refine .andThen (declareTypedefs_outcome (adopt_evolves _) _) fun _ t => ?_
      refine .andThen (declareNamespaces_outcome env _ _ t namespaces
        fun m hm e he => hd e (.inNamespace hm he)) fun _ t => ?_
      refine .andThen (.modify ?_) fun _ _ => .pure _
      exact ((Evolves.refl t).applyInclude env entry decls.file?).aside rfl rfl rfl

theorem declareNamespaces_outcome {h : Header} (env : Env) (p : Place) (parent : ClassId)
    (s : State) : (l : List NamespaceDecl) →
      (∀ d ∈ l, ∀ e, (Scope.ofNamespace d).DeclaresEnum e → h.DeclaresEnum e) →
      Outcome (Evolves h) (RefusedAdded env) (declareNamespaces env p parent l) s
  | [], _ => .pure _
  | d :: ds, hl =>
    adopted_outcome parent (declareNamespace_outcome env p s d (hl d List.mem_cons_self))
      fun t => declareNamespaces_outcome env p parent t ds
        fun n hn => hl n (List.mem_cons_of_mem d hn)

end

theorem declareRuleTypedefs_outcome {h : Header} (env : Env) (s : State) :
    Outcome (Evolves h) (RefusedAdded env) (declareRuleTypedefs env) s := by
  refine .get_bind (Outcome.forM fun e he t ht => .get_bind ?_)
  dsimp only
  split
  · next target source htarget _ =>
    split
    · exact .pure _
    · have hdesc : t.db.Describes target := .inr ⟨e, by rwa [ht.db.frame.1], htarget⟩
      have hnew := (Evolves.refl (h := h) t).createClass (c := .typedef target source) hdesc rfl
        (.of_nil rfl)
      refine .andThen (.set hnew) fun _ _ => .andThen (fillAdded_outcome _) fun _ u => ?_
      exact .modify ((Evolves.refl u).addClass _)
  · exact .pure _

theorem declareAll_outcome (env : Env) (s : State) :
    Outcome (Evolves env.header) (RefusedAdded env) (declareAll env) s := by
  have hfile : ∀ {d : Build (Option ClassId)} {t : State},
      Outcome (Evolves env.header) (RefusedAdded env) d t →
        Outcome (Evolves env.header) (RefusedAdded env) (do
        match ← d with
        | some c => modify (·.addClass c)
        | none => pure ()) t := by
    intro d t hd
    refine hd.andThen fun c? u => ?_
    cases c? with
    | none => exact .pure _
    | some c => exact .modify ((Evolves.refl u).addClass c)
  refine .andThen (.forM fun d hd t _ => hfile ?_) fun _ t => ?_
  · exact declareClass_outcome env {} t d fun e he => .inClass hd he
  refine .andThen (.forM fun d hd t _ => hfile ?_) fun _ t => ?_
  · exact declareNamespace_outcome env {} t d fun e he => .inNamespace hd he
  refine .andThen (.modify (addGlobalEnums_evolves env t)) fun _ t => ?_
  refine .andThen (.forM fun d _ t _ => hfile (declareTypedef_outcome d)) fun _ t => ?_
  exact declareRuleTypedefs_outcome env t

/-! ### Members -/

theorem addMembers_outcome {h : Header} (env : Env) (path : List String) (i : ClassId)
    (d : Declarations) (s : State) :
    Outcome (Evolves h) (RefusedAdded env) (addMembers env ⟨some i, path⟩ i d) s := by
  refine .andThen (.modify (.foldl (fun t v _ => addField_evolves env _ i t v) s)) fun _ t => ?_
  refine .andThen (.modify (.foldl (fun u f _ => addMember_evolves env path i u f) t)) fun _ u => ?_
  exact fillAdded_outcome i

mutual

theorem fillClass_outcome {h : Header} (env : Env) (p : Place) (s : State) :
    (d : ClassDecl) → Outcome (Evolves h) (RefusedAdded env) (fillClass env p d) s
  | ⟨decls, classes, _, _, _, _⟩ => by
    unfold fillClass
    refine .get_bind ?_
    split
    · exact .pure _
    · refine .andThen (addMembers_outcome env _ _ decls s) fun _ t => ?_
      exact fillClasses_outcome env _ t classes

theorem fillClasses_outcome {h : Header} (env : Env) (p : Place) (s : State) :
    (l : List ClassDecl) → Outcome (Evolves h) (RefusedAdded env) (fillClasses env p l) s
  | [] => .pure _
  | d :: ds => .andThen (fillClass_outcome env p s d) fun _ t => fillClasses_outcome env p t ds

end

mutual

theorem fillNamespace_outcome {h : Header} (env : Env) (p : Place) (s : State) :
    (d : NamespaceDecl) → Outcome (Evolves h) (RefusedAdded env) (fillNamespace env p d) s
  | ⟨decls, classes, namespaces⟩ => by
    unfold fillNamespace
    refine .get_bind ?_
    split
    · exact .pure _
    · refine .andThen (addMembers_outcome env _ _ decls s) fun _ t => ?_
      refine .andThen (fillClasses_outcome env _ t classes) fun _ u => ?_
      exact fillNamespaces_outcome env _ u namespaces

theorem fillNamespaces_outcome {h : Header} (env : Env) (p : Place) (s : State) :
    (l : List NamespaceDecl) → Outcome (Evolves h) (RefusedAdded env) (fillNamespaces env p l) s
  | [] => .pure _
  | d :: ds =>
    .andThen (fillNamespace_outcome env p s d) fun _ t => fillNamespaces_outcome env p t ds

end

theorem fillAll_outcome {h : Header} (env : Env) (s : State) :
    Outcome (Evolves h) (RefusedAdded env) (fillAll env) s := by
  refine .andThen (fillClasses_outcome env {} s _) fun _ t => ?_
  refine .andThen (fillNamespaces_outcome env {} t _) fun _ u => ?_
  exact .modify (.foldl (fun v d _ => addGlobalFunction_evolves env v d) u)

/-! ### Needs in a circle -/

/-- Two different classes that were created need one another, if only over others of the list. -/
def Entangled (s : ClassStore) (all : List ClassId) : Prop :=
  ∃ x y, x ≠ y ∧ x < s.classes.size ∧ y < s.classes.size ∧
    Relation.TransGen (s.Needs all) x y ∧ Relation.TransGen (s.Needs all) y x

/-- The registered classes, or those inside one class, need one another. -/
def CyclicNeeds (e : Error) (s : State) : Prop :=
  ∃ all, (all = s.registry.members ∨ ∃ i, all = (s.store.get i).inner) ∧ Entangled s.store all ∧
    ∃ cycle, e = .cyclicDependency cycle

theorem lt_size_of_needs {s : ClassStore} {all : List ClassId} {x c : ClassId}
    (h : s.Needs all x c) : c < s.classes.size := by
  by_contra hc
  have hnone : s.get c = default := by
    unfold ClassStore.get
    rw [Array.getElem?_eq_none (Nat.not_lt.mp hc)]
    rfl
  rcases h.cause with (hx | hx | hx | hx) | ⟨-, f, hf, -⟩
  · rw [ClassStore.enclosing?, hnone] at hx
    cases hx
  · rw [ClassStore.base?, hnone] at hx
    cases hx
  · rw [ClassStore.interfaces, hnone] at hx
    cases hx
  · rw [ClassStore.templateBase?, hnone] at hx
    cases hx
  · rw [hnone] at hf
    cases hf

theorem entangled_of_cyclic {s : ClassStore} {all : List ClassId} (h : Cyclic (s.Needs all)) :
    Entangled s all := by
  obtain ⟨x, hx⟩ := h
  -- Nothing needs itself, so there is a second class on the way.
  obtain ⟨y, hxy, hyx⟩ := Relation.TransGen.head'_iff.mp hx
  have hback : Relation.TransGen (s.Needs all) y x := by
    rcases Relation.reflTransGen_iff_eq_or_transGen.mp hyx with heq | hpath
    · exact absurd heq hxy.ne
    · exact hpath
  obtain ⟨z, -, hzx⟩ := Relation.TransGen.tail'_iff.mp hback
  exact ⟨x, y, hxy.ne, lt_size_of_needs hzx, lt_size_of_needs hxy, .single hxy, hback⟩

theorem orderInner_outcome {h : Header} (classes : List ClassId) (s : State) :
    Outcome (Evolves h) CyclicNeeds (orderInner classes) s := by
  refine Outcome.forM fun i _ t _ => .get_bind ?_
  dsimp only
  split
  · split
    · exact .set ((Evolves.refl t).modifyClass i fun _ => rfl)
    · next e he =>
      obtain ⟨hcyclic, hcycle⟩ := ClassStore.cyclic_of_orderClasses_eq_error he
      exact .throw ⟨_, .inr ⟨i, rfl⟩, entangled_of_cyclic hcyclic, hcycle⟩
  · exact .pure _

/-! ### The whole assembly -/

theorem run_refused (env : Env) (s : State) :
    Outcome (Evolves env.header) (fun e t => RefusedAdded env e t ∨ CyclicNeeds e t) (run env)
      s := by
  refine .andThen ((declareAll_outcome env s).mono fun _ _ => .inl) fun _ t => ?_
  refine .andThen ((fillAll_outcome env t).mono fun _ _ => .inl) fun _ t => ?_
  refine .andThen (.modify (complete_evolves env t)) fun _ t => .get_bind ?_
  cases hsort : t.store.sortClasses t.registry.members with
  | error e =>
    obtain ⟨hcyclic, hcycle⟩ := ClassStore.cyclic_of_sortClasses_eq_error hsort
    exact .throw (.inr ⟨_, .inl rfl, entangled_of_cyclic hcyclic, hcycle⟩)
  | ok classes =>
    refine .andThen (.modify (linkCopies_evolves classes t)) fun _ t => ?_
    refine .andThen ((orderInner_outcome classes t).mono fun _ _ => .inr) fun _ t => ?_
    refine .andThen (fillGlobalAdded_outcome.mono fun _ _ => .inl) fun _ t => ?_
    exact .andThen (.modify (settlePoliciesAll_evolves classes t)) fun _ _ => .pure _

theorem run_outcome (env : Env) (s : State) :
    Outcome (Evolves env.header) (fun e t => UnknownAdded e t ∨ CyclicNeeds e t) (run env) s := by
  refine (run_refused env s).mono fun e t he => he.imp_left ?_
  rintro ⟨r, rfl⟩
  exact r.unknownAdded

/-- The rules `db` add the function to a class that was created, by the entry of that class, or to
the global scope. -/
inductive AddedBy (db : Database) (s : State) (a : AddedFunction) : String → Prop
  | toClass (i : ClassId) (hi : i < s.store.classes.size)
      (hd : db.Describes (s.store.get i).entry) (ha : a ∈ (s.store.get i).entry.added) :
      AddedBy db s a (s.store.get i).qualifiedName
  | globally (ha : a ∈ db.globalAdded) : AddedBy db s a "<global>"

/-- An entry that a run made for a class is one that the rules described before it. -/
theorem addedBy_of_addedTo {header : Header} {db : Database} {s : State} {a : AddedFunction}
    {scope : String} (hs : Evolves header { db } s) (h : AddedTo s a scope) :
    AddedBy db s a scope := by
  rcases h with ⟨i, ha, rfl⟩ | ⟨ha, rfl⟩
  · have hi := ClassStore.lt_size_of_added ha
    have hd := hs.described i hi (Nat.zero_le i)
    exact .toClass i hi ((hs.db.describes_iff (Entry.isComplex_of_added ha)).mp hd) ha
  · rw [hs.db.frame.2] at ha
    exact .globally ha

/-- An assembly makes a model, unless a type of a function that the rules add is not found, or
classes need one another. Nothing in a header makes it fail in any other way. -/
theorem assemble_ok_or_error (config : Config) (header : Header) (db : Database) :
    (∃ m, (assemble config header db).result = .ok m) ∨
    ∃ e s, run (.make config header) { db } = .error e s ∧
      (assemble config header db).result = .error e ∧
      ((∃ a scope, AddedBy db s a scope ∧ ∃ t ∈ a.types, e = .addedFunction a.name scope
          (.typeNotFound t.qualifiedName (s.db.candidates t.localName))) ∨ CyclicNeeds e s) := by
  cases hrun : run (.make config header) { db } with
  | ok classes s => exact .inl ⟨_, assemble_eq_ok.mpr ⟨classes, s, hrun, rfl⟩⟩
  | error e s =>
    obtain ⟨hs, hadded | hcycle⟩ := (run_outcome _ _).of_error hrun
    · obtain ⟨a, scope, ha, t, ht, he⟩ := hadded
      refine .inr ⟨e, s, rfl, assemble_eq_error.mpr ⟨s, hrun⟩, .inl ⟨a, scope, ?_, t, ht, he⟩⟩
      exact addedBy_of_addedTo hs ha
    · exact .inr ⟨e, s, rfl, assemble_eq_error.mpr ⟨s, hrun⟩, .inr hcycle⟩

end Assembly
end BindingModel
