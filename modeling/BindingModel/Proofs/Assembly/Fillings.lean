import BindingModel.Proofs.Assembly.Siblings
import BindingModel.Proofs.Assembly.Stages

/-! The second pass as a list of blocks, each with the class that gets its members, and what a class
has got from them in the end. -/
namespace BindingModel
open Api Header

namespace Assembly

/-! ### The blocks of the second pass -/

/-- A block and the class that gets its members. -/
structure Filling where
  block : Block
  target : ClassId

mutual

/-- What the second pass fills inside a scope, where classes are found by the keys of scopes. It
does not go into a class that is not found. -/
def fillingsClass (find : String → Option ClassId) (path : List String) :
    ClassDecl → List Filling
  | ⟨decls, classes, _, _, _, _⟩ =>
    let b : Block := ⟨path ++ [Text.withoutArguments decls.name], decls⟩
    match find b.key with
    | none => []
    | some c => ⟨b, c⟩ :: fillingsClasses find b.path classes

def fillingsClasses (find : String → Option ClassId) (path : List String) :
    List ClassDecl → List Filling
  | [] => []
  | d :: ds => fillingsClass find path d ++ fillingsClasses find path ds

end

mutual

def fillingsNamespace (find : String → Option ClassId) (path : List String) :
    NamespaceDecl → List Filling
  | ⟨decls, classes, namespaces⟩ =>
    let b : Block := ⟨path ++ [decls.name], decls⟩
    match find b.key with
    | none => []
    | some c =>
      ⟨b, c⟩ :: (fillingsClasses find b.path classes ++ fillingsNamespaces find b.path namespaces)

def fillingsNamespaces (find : String → Option ClassId) (path : List String) :
    List NamespaceDecl → List Filling
  | [] => []
  | d :: ds => fillingsNamespace find path d ++ fillingsNamespaces find path ds

end

/-- All that the second pass fills. -/
def fillings (h : Header) (find : String → Option ClassId) : List Filling :=
  fillingsClasses find [] h.global.classes ++ fillingsNamespaces find [] h.global.namespaces

def fillBlock (env : Env) (f : Filling) : Build Unit :=
  addMembers env ⟨some f.target, f.block.path⟩ f.target f.block.decls

theorem Build.bind_congr {α β : Type} {m : Build α} {f g : α → Build β} {s : State}
    (h : ∀ a t, m s = .ok a t → f a t = g a t) : (m >>= f) s = (m >>= g) s := by
  cases hm : m s with
  | ok a t => rw [Build.bind_of_ok hm, Build.bind_of_ok hm, h a t hm]
  | error e t => rw [Build.bind_of_error hm, Build.bind_of_error hm]

theorem classOfScope?_of_ok {env : Env} {f : Filling} {s t : State}
    (h : fillBlock env f s = .ok () t) : t.classOfScope? = s.classOfScope? := by
  have hadvances : Advances [] .filling s t := (addMembers_advances _ _ _).of_ok h
  funext key
  unfold State.classOfScope?
  rw [hadvances.scopes]

theorem classOfScope?_of_forM {env : Env} {l : List Filling} {s t : State}
    (h : l.forM (fillBlock env) s = .ok () t) : t.classOfScope? = s.classOfScope? := by
  induction l generalizing s with
  | nil =>
    cases h
    rfl
  | cons f l ih =>
    obtain ⟨_, u, hfirst, hrest⟩ := Build.bind_eq_ok.mp h
    rw [ih hrest, classOfScope?_of_ok hfirst]

theorem fillBlock_eq (env : Env) (f : Filling) : fillBlock env f = [f].forM (fillBlock env) :=
  (bind_pure (fillBlock env f)).symm

/-- Two parts that fill one list of blocks each fill one list of blocks together. -/
theorem fill_append {env : Env} {m n : Build Unit} {s : State} {l : List Filling}
    (l' : (String → Option ClassId) → List Filling) (hm : m s = l.forM (fillBlock env) s)
    (hn : ∀ t, n t = (l' t.classOfScope?).forM (fillBlock env) t) :
    (m >>= fun _ => n) s = (l ++ l' s.classOfScope?).forM (fillBlock env) s := by
  have happend : (l ++ l' s.classOfScope?).forM (fillBlock env) =
      (l.forM (fillBlock env) >>= fun _ => (l' s.classOfScope?).forM (fillBlock env)) := by
    simp only [List.forM_eq_forM, List.forM_append]
  have hfirst : (m >>= fun _ => n) s = (l.forM (fillBlock env) >>= fun _ => n) s := by
    cases hrun : m s with
    | ok a t => rw [Build.bind_of_ok hrun, Build.bind_of_ok (hm.symm.trans hrun)]
    | error e t => rw [Build.bind_of_error hrun, Build.bind_of_error (hm.symm.trans hrun)]
  rw [happend, hfirst]
  refine Build.bind_congr fun _ t hrun => ?_
  rw [hn t, classOfScope?_of_forM hrun]

mutual

theorem fillClass_eq (env : Env) (p : Place) (s : State) : (d : ClassDecl) →
    fillClass env p d s = (fillingsClass s.classOfScope? p.path d).forM (fillBlock env) s
  | ⟨decls, classes, _, _, _, _⟩ => by
    unfold fillClass
    show (match s.classOfScope? (p.key (Text.withoutArguments decls.name)) with
      | none => pure ()
      | some c => do
        addMembers env (p.enter c (Text.withoutArguments decls.name)) c decls
        fillClasses env (p.enter c (Text.withoutArguments decls.name)) classes : Build Unit) s =
      List.forM (match s.classOfScope? (p.key (Text.withoutArguments decls.name)) with
      | none => []
      | some c => [⟨⟨p.path ++ [Text.withoutArguments decls.name], decls⟩, c⟩] ++
        fillingsClasses s.classOfScope? (p.path ++ [Text.withoutArguments decls.name]) classes)
        (fillBlock env) s
    cases s.classOfScope? (p.key (Text.withoutArguments decls.name)) with
    | none => rfl
    | some c =>
      have hblock := congrFun (fillBlock_eq env
        ⟨⟨p.path ++ [Text.withoutArguments decls.name], decls⟩, c⟩) s
      exact fill_append (fillingsClasses · (p.path ++ [Text.withoutArguments decls.name]) classes)
        hblock fun t => fillClasses_eq env _ t classes

theorem fillClasses_eq (env : Env) (p : Place) (s : State) : (l : List ClassDecl) →
    fillClasses env p l s = (fillingsClasses s.classOfScope? p.path l).forM (fillBlock env) s
  | [] => rfl
  | d :: ds =>
    fill_append (fillingsClasses · p.path ds) (fillClass_eq env p s d)
      fun t => fillClasses_eq env p t ds

end

mutual

theorem fillNamespace_eq (env : Env) (p : Place) (s : State) : (d : NamespaceDecl) →
    fillNamespace env p d s = (fillingsNamespace s.classOfScope? p.path d).forM (fillBlock env) s
  | ⟨decls, classes, namespaces⟩ => by
    unfold fillNamespace
    show (match s.classOfScope? (p.key decls.name) with
      | none => pure ()
      | some c => do
        addMembers env (p.enter c decls.name) c decls
        fillClasses env (p.enter c decls.name) classes
        fillNamespaces env (p.enter c decls.name) namespaces : Build Unit) s =
      List.forM (match s.classOfScope? (p.key decls.name) with
      | none => []
      | some c => [⟨⟨p.path ++ [decls.name], decls⟩, c⟩] ++
        (fillingsClasses s.classOfScope? (p.path ++ [decls.name]) classes ++
          fillingsNamespaces s.classOfScope? (p.path ++ [decls.name]) namespaces))
        (fillBlock env) s
    cases s.classOfScope? (p.key decls.name) with
    | none => rfl
    | some c =>
      have hblock := congrFun (fillBlock_eq env ⟨⟨p.path ++ [decls.name], decls⟩, c⟩) s
      refine fill_append (fun find => fillingsClasses find (p.path ++ [decls.name]) classes ++
        fillingsNamespaces find (p.path ++ [decls.name]) namespaces) hblock fun t => ?_
      exact fill_append (fillingsNamespaces · (p.path ++ [decls.name]) namespaces)
        (fillClasses_eq env _ t classes) fun u => fillNamespaces_eq env _ u namespaces

theorem fillNamespaces_eq (env : Env) (p : Place) (s : State) : (l : List NamespaceDecl) →
    fillNamespaces env p l s = (fillingsNamespaces s.classOfScope? p.path l).forM (fillBlock env) s
  | [] => rfl
  | d :: ds =>
    fill_append (fillingsNamespaces · p.path ds) (fillNamespace_eq env p s d)
      fun t => fillNamespaces_eq env p t ds

end

/-- The second pass fills its blocks and then takes up the global functions. -/
theorem fillAll_eq_ok {env : Env} {s u : State} (h : fillAll env s = .ok () u) :
    ∃ t, (fillings env.header s.classOfScope?).forM (fillBlock env) s = .ok () t ∧
      u = env.header.global.decls.functions.foldl (addGlobalFunction env) t := by
  unfold fillAll at h
  rw [← bind_assoc] at h
  obtain ⟨_, t, hblocks, hglobal⟩ := Build.bind_eq_ok.mp h
  cases hglobal
  refine ⟨t, ?_, rfl⟩
  rw [← hblocks]
  exact (fill_append (fillingsNamespaces · [] env.header.global.namespaces)
    (fillClasses_eq env {} s env.header.global.classes)
    fun t => fillNamespaces_eq env {} t env.header.global.namespaces).symm

/-! ### What a block gives -/

/-- The field that a variable gives its class, if it gives one. -/
def fieldOf (env : Env) (path : List String) (i : ClassId) (s : State) (v : VariableDecl) :
    Option Field :=
  match Draft.field ⟨s.lookup env, path, some i⟩ i (s.store.get i) v with
  | .built f => some f
  | _ => none

namespace Filling

/-- The fields that the block gives in some state. -/
def fields (f : Filling) (env : Env) (s : State) : List Field :=
  f.block.decls.vars.filterMap (fieldOf env f.block.path f.target s)

/-- The functions that the block gives, after its fields: those that it declares and those that the
rules add to the class. -/
def functions (f : Filling) (env : Env) (s : State) : List Function :=
  let u := f.block.decls.vars.foldl (addField env ⟨some f.target, f.block.path⟩ f.target) s
  f.block.decls.functions.filterMap (memberOf env f.block.path f.target u) ++
    addedMembers ⟨u.lookup env, f.block.path, some f.target⟩ (u.store.get f.target).entry.added

end Filling

/-- Nothing but the one class was changed. -/
structure OnlyIn (i : ClassId) (s t : State) : Prop where
  size : t.store.classes.size = s.store.classes.size
  others : ∀ c, c ≠ i → t.store.get c = s.store.get c

namespace OnlyIn
variable {i : ClassId} {s t u : State}

theorem of_eq (h : t.store = s.store) : OnlyIn i s t := by
  constructor
  · rw [h]
  · intro c _
    rw [h]

theorem refl (s : State) : OnlyIn i s s := of_eq rfl

theorem trans (h : OnlyIn i s t) (k : OnlyIn i t u) : OnlyIn i s u :=
  ⟨k.size.trans h.size, fun c hc => (k.others c hc).trans (h.others c hc)⟩

instance : Std.Refl (OnlyIn i) := ⟨refl⟩

instance : IsTrans State (OnlyIn i) := ⟨fun _ _ _ => trans⟩

theorem modifyClass (s : State) (f : BoundClass → BoundClass) : OnlyIn i s (s.modifyClass i f) := by
  refine ⟨s.store.size_modify i f, fun c hc => ?_⟩
  show (s.store.modify i f).get c = _
  rw [ClassStore.get_modify, if_neg fun h => hc h.1.symm]

end OnlyIn

section
variable {env : Env} {path : List String} {i : ClassId} {s : State}

theorem addField_onlyIn (s : State) (v : VariableDecl) :
    OnlyIn i s (addField env ⟨some i, path⟩ i s v) := by
  unfold addField
  dsimp only
  split
  · exact .modifyClass s _
  · exact .refl s
  · exact .of_eq rfl
  · unfold State.warnIf
    split <;> exact .of_eq rfl

theorem addMember_onlyIn (s : State) (d : FunctionDecl) :
    OnlyIn i s (addMember env ⟨some i, path⟩ i s d) := by
  have hjudge : OnlyIn i s (s.judge env ⟨some i, path⟩ d).2 := .of_eq (store_judge s env _ d)
  unfold addMember
  dsimp only
  split
  · next t ht =>
    rwa [ht] at hjudge
  · next t ht =>
    rw [ht] at hjudge
    exact hjudge.trans (.modifyClass t _)
  · next f t ht =>
    rw [ht] at hjudge
    split
    · exact hjudge.trans (.modifyClass t _)
    · split
      · exact hjudge.trans (.modifyClass t _)
      · exact (hjudge.trans (.modifyClass t _)).trans (.modifyClass _ _)

/-- What warnings and added functions keep is kept when the rules add functions. -/
theorem fillAdded_steps {r : State → State → Prop} [Std.Refl r] [IsTrans State r]
    (hwarn : ∀ s ws, r s (s.warnAll ws))
    (hadd : ∀ s f, r s (s.modifyClass i (·.addFunction f))) (p : Place) (s : State) :
    Outcome r (fun _ _ => True) (fillAdded env p i) s := by
  refine .get_bind ?_
  dsimp only
  split
  · exact .pure _
  · refine Outcome.forM fun a _ t _ => .andThen (.get_bind ?_) fun f u => .modify (hadd u f)
    dsimp only
    split
    · exact .andThen (.set (hwarn t _)) fun _ _ => .pure _
    · exact .throw trivial

theorem fillAdded_onlyIn (p : Place) (s : State) :
    Outcome (OnlyIn i) (fun _ _ => True) (fillAdded env p i) s :=
  fillAdded_steps (fun s ws => .of_eq (s.store_warnAll ws)) (fun s _ => .modifyClass s _) p s

instance : Std.Refl (SameSurroundings i) := ⟨.refl⟩

instance : IsTrans State (SameSurroundings i) := ⟨fun _ _ _ => .trans⟩

theorem fillAdded_surroundings (p : Place) (s : State) :
    Outcome (SameSurroundings i) (fun _ _ => True) (fillAdded env p i) s :=
  fillAdded_steps (warnAll_surroundings i)
    (fun s _ => .modifyClass s i fun _ => ⟨rfl, rfl, rfl, rfl⟩) p s

/-! ### Fields -/

theorem fieldOf_congr {t : State} (h : (s.lookup env).Agrees (t.lookup env)) :
    fieldOf env path i s = fieldOf env path i t := by
  have hentry : (s.store.get i).entry = (t.store.get i).entry :=
    BoundClass.entry_eq_of_head (h.head i)
  have hrejection := h.rules.rejection?
  funext v
  unfold fieldOf Draft.field Draft.bindType BoundClass.qualifiedName BoundClass.isNamespace
  dsimp only
  rw [h.bindType, hentry, hrejection]

theorem addField_agrees (s : State) (v : VariableDecl) :
    (s.lookup env).Agrees ((addField env ⟨some i, path⟩ i s v).lookup env) := by
  have hmodify : ∀ f : Field, (s.lookup env).Agrees
      ((s.modifyClass i (·.addField f)).lookup env) := by
    intro f
    refine ⟨.refl s.db, rfl, rfl, fun j => ?_, fun j => ?_, rfl, rfl, rfl⟩
    · show _ = ((s.store.modify i _).get j).head
      rw [ClassStore.get_modify]
      split <;> rfl
    · show _ = ((s.store.modify i _).get j).enums
      rw [ClassStore.get_modify]
      split <;> rfl
  have hrefl : (s.lookup env).Agrees (s.lookup env) :=
    ⟨.refl s.db, rfl, rfl, fun _ => rfl, fun _ => rfl, rfl, rfl, rfl⟩
  unfold addField
  dsimp only
  split
  · exact hmodify _
  · exact hrefl
  · exact hrefl
  · unfold State.warnIf
    split <;> exact hrefl

theorem fields_addField (hi : i < s.store.classes.size) (v : VariableDecl) :
    ((addField env ⟨some i, path⟩ i s v).store.get i).fields =
      (s.store.get i).fields ++ (fieldOf env path i s v).toList := by
  have hwarned : ∀ (b : Bool) w, (s.warnIf b w).store = s.store := by
    intro b w
    unfold State.warnIf
    split <;> rfl
  unfold addField fieldOf
  dsimp only
  cases Draft.field ⟨s.lookup env, path, some i⟩ i (s.store.get i) v with
  | built f =>
    dsimp only
    rw [get_modifyClass_self hi]
    rfl
  | ignored => exact (List.append_nil _).symm
  | rejected rule => exact (List.append_nil _).symm
  | unmatched =>
    dsimp only
    rw [hwarned]
    exact (List.append_nil _).symm

/-- Variables append what each of them gives on its own, and nothing else. -/
theorem fields_foldl_addField (hi : i < s.store.classes.size) (l : List VariableDecl) :
    ((l.foldl (addField env ⟨some i, path⟩ i) s).store.get i).fields =
      (s.store.get i).fields ++ l.filterMap (fieldOf env path i s) := by
  induction l generalizing s with
  | nil => exact (List.append_nil _).symm
  | cons v l ih =>
    have honly : OnlyIn i s (addField env ⟨some i, path⟩ i s v) := addField_onlyIn s v
    rw [List.foldl_cons, ih (honly.size ▸ hi), fields_addField hi v,
      ← fieldOf_congr (addField_agrees s v), List.append_assoc]
    congr 1
    cases hf : fieldOf env path i s v <;> simp [hf]

end

/-- A block gives its class its fields and functions, and other classes nothing. -/
theorem members_fillBlock {env : Env} {f : Filling} {s t : State}
    (hi : f.target < s.store.classes.size) (h : fillBlock env f s = .ok () t) :
    (t.store.get f.target).fields = (s.store.get f.target).fields ++ f.fields env s ∧
      (t.store.get f.target).functions = (s.store.get f.target).functions ++ f.functions env s ∧
      OnlyIn f.target s t := by
  obtain ⟨⟨path, d⟩, i⟩ := f
  dsimp only at hi ⊢
  let u := d.vars.foldl (addField env ⟨some i, path⟩ i) s
  let v := d.functions.foldl (addMember env ⟨some i, path⟩ i) u
  have hrules : fillAdded env ⟨some i, path⟩ i v = .ok () t := h
  have hvars : OnlyIn i s u := List.foldlRecOn d.vars _ (.refl s) fun w hw x _ =>
    hw.trans (addField_onlyIn w x)
  have hmembers : OnlyIn i u v := List.foldlRecOn d.functions _ (.refl u) fun w hw x _ =>
    hw.trans (addMember_onlyIn w x)
  have hiu : i < u.store.classes.size := hvars.size ▸ hi
  have hiv : i < v.store.classes.size := hmembers.size ▸ hiu
  have hsame : SameSurroundings i u v := foldl_addMember_surroundings env path i u d.functions
  refine ⟨?_, ?_, (hvars.trans hmembers).trans ((fillAdded_onlyIn _ v).of_ok hrules)⟩
  · rw [← ((fillAdded_surroundings _ v).of_ok hrules).fields, ← hsame.fields]
    exact fields_foldl_addField hi d.vars
  · have hadded : ((Build.after (fillAdded env ⟨some i, path⟩ i) v).store.get i).functions = _ :=
      functions_fillAdded hiv
    rw [Build.after_of_ok hrules] at hadded
    rw [hadded, functions_foldl_addMember env path hiu,
      (functions_foldl_addField env path i s d.vars).1, ← addedMembers_congr (hsame.draft env path),
      ← hsame.entry, List.append_assoc]
    rfl

/-! ### The whole pass -/

/-- The blocks that are filled, each with the state in which that happens. -/
def trace (env : Env) : List Filling → State → List (Filling × State)
  | [], _ => []
  | f :: l, s => (f, s) :: trace env l ((fillBlock env f).after s)

theorem map_trace (env : Env) (l : List Filling) (s : State) : (trace env l s).map (·.1) = l := by
  induction l generalizing s with
  | nil => rfl
  | cons f l ih =>
    unfold trace
    rw [List.map_cons, ih]

/-- The fillings of one class. -/
def traceOf (env : Env) (c : ClassId) (l : List Filling) (s : State) : List (Filling × State) :=
  (trace env l s).filter (·.1.target == c)

theorem map_traceOf (env : Env) (c : ClassId) (l : List Filling) (s : State) :
    (traceOf env c l s).map (·.1) = l.filter (·.target == c) := by
  have hmap := List.filter_map (f := (·.1)) (p := fun f : Filling => f.target == c)
    (l := trace env l s)
  rw [map_trace] at hmap
  exact hmap.symm

/-- A class has got what its blocks give, block after block, and nothing else. -/
theorem members_forM {env : Env} {l : List Filling} {s t : State}
    (hl : ∀ f ∈ l, f.target < s.store.classes.size) (h : l.forM (fillBlock env) s = .ok () t)
    (c : ClassId) :
    (t.store.get c).fields = (s.store.get c).fields ++
        (traceOf env c l s).flatMap (fun x => x.1.fields env x.2) ∧
      (t.store.get c).functions = (s.store.get c).functions ++
        (traceOf env c l s).flatMap (fun x => x.1.functions env x.2) := by
  induction l generalizing s with
  | nil =>
    cases h
    exact ⟨(List.append_nil _).symm, (List.append_nil _).symm⟩
  | cons f l ih =>
    obtain ⟨_, u, hfirst, hrest⟩ := Build.bind_eq_ok.mp h
    obtain ⟨hfields, hfunctions, honly⟩ := members_fillBlock (hl f List.mem_cons_self) hfirst
    obtain ⟨ihfields, ihfunctions⟩ := ih
      (fun g hg => honly.size ▸ hl g (List.mem_cons_of_mem f hg)) hrest
    have htrace : traceOf env c (f :: l) s =
        if f.target = c then (f, s) :: traceOf env c l u else traceOf env c l u := by
      show ((f, s) :: trace env l ((fillBlock env f).after s)).filter (·.1.target == c) = _
      rw [Build.after_of_ok hfirst, List.filter_cons]
      simp only [beq_iff_eq]
      rfl
    rw [ihfields, ihfunctions, htrace]
    by_cases hc : f.target = c
    · subst hc
      rw [if_pos rfl, hfields, hfunctions, List.flatMap_cons, List.flatMap_cons,
        List.append_assoc, List.append_assoc]
      exact ⟨rfl, rfl⟩
    · rw [if_neg hc, honly.others c (Ne.symm hc)]
      exact ⟨rfl, rfl⟩

end Assembly
end BindingModel
