import BindingModel.Proofs.Assembly.Agreement
import BindingModel.Proofs.Assembly.Failure

/-! What becomes of a declaration inside a class does not depend on its siblings: it reads neither
the functions and marks of the class nor the log. -/
namespace BindingModel
open Api Header

namespace Assembly

/-! ### Surroundings -/

/-- A declaration of the class has the same surroundings in both: the rules, what the first pass
declared, and the entry, fields and properties of the class. -/
structure SameSurroundings (i : ClassId) (s t : State) : Prop where
  rules : s.db.SameRules t.db
  registry : s.registry = t.registry
  globalEnums : s.globalEnums = t.globalEnums
  size : s.store.classes.size = t.store.classes.size
  released : s.store.released = t.store.released
  head : ∀ j, (s.store.get j).head = (t.store.get j).head
  enums : ∀ j, (s.store.get j).enums = (t.store.get j).enums
  fields : (s.store.get i).fields = (t.store.get i).fields
  properties : (s.store.get i).properties = (t.store.get i).properties

namespace SameSurroundings
variable {i : ClassId} {s t u : State}

theorem of_eq (hdb : s.db = t.db) (hstore : s.store = t.store) (hregistry : s.registry = t.registry)
    (henums : s.globalEnums = t.globalEnums) : SameSurroundings i s t := by
  refine ⟨hdb ▸ .refl s.db, hregistry, henums, ?_, ?_, fun j => ?_, fun j => ?_, ?_, ?_⟩ <;>
    rw [hstore]

theorem refl (s : State) : SameSurroundings i s s := of_eq rfl rfl rfl rfl

theorem trans (h : SameSurroundings i s t) (k : SameSurroundings i t u) :
    SameSurroundings i s u :=
  ⟨h.rules.trans k.rules, h.registry.trans k.registry, h.globalEnums.trans k.globalEnums,
    h.size.trans k.size, h.released.trans k.released, fun j => (h.head j).trans (k.head j),
    fun j => (h.enums j).trans (k.enums j), h.fields.trans k.fields,
    h.properties.trans k.properties⟩

theorem modifyClass (s : State) (j : ClassId) {f : BoundClass → BoundClass}
    (hf : ∀ c : BoundClass, (f c).head = c.head ∧ (f c).enums = c.enums ∧ (f c).fields = c.fields ∧
      (f c).properties = c.properties) : SameSurroundings i s (s.modifyClass j f) := by
  have hget : ∀ k, (s.modifyClass j f).store.get k =
      if j = k ∧ k < s.store.classes.size then f (s.store.get k) else s.store.get k :=
    fun k => s.store.get_modify j k f
  refine ⟨.refl s.db, rfl, rfl, (s.store.size_modify j f).symm, rfl, fun k => ?_, fun k => ?_, ?_,
    ?_⟩ <;> rw [hget] <;> split
  · exact (hf _).1.symm
  · rfl
  · exact (hf _).2.1.symm
  · rfl
  · exact (hf _).2.2.1.symm
  · rfl
  · exact (hf _).2.2.2.symm
  · rfl

theorem isLive (h : SameSurroundings i s t) : s.store.isLive = t.store.isLive := by
  funext j
  unfold ClassStore.isLive
  rw [h.size, h.released]

theorem entry (h : SameSurroundings i s t) (j : ClassId) :
    (s.store.get j).entry = (t.store.get j).entry :=
  BoundClass.entry_eq_of_head (h.head j)

theorem draft (h : SameSurroundings i s t) (env : Env) (path : List String) :
    Draft.Agrees ⟨s.lookup env, path, some i⟩ ⟨t.lookup env, path, some i⟩ where
  lookup := {
    rules := h.rules
    header := rfl
    registry := congrArg some h.registry
    head := h.head
    enums := h.enums
    globalEnums := h.globalEnums
    maxScopeDepth := rfl
    maxTemplateDepth := rfl }
  isLive := h.isLive
  path := rfl
  class? := rfl
  fields := by
    intro j hj
    obtain rfl := Option.some.inj hj
    exact h.fields

theorem finishMember (h : SameSurroundings i s t) (f : Function) :
    finishMember s (s.store.get i) f = finishMember t (t.store.get i) f := by
  unfold Assembly.finishMember fixConversion
  rw [h.properties, ClassStore.modsOf_congr h.isLive h.entry h.rules, h.rules.findType?]

end SameSurroundings

/-! ### What a declaration gives -/

theorem judge_fst (s : State) (env : Env) (p : Place) (d : FunctionDecl) :
    (s.judge env p d).1 =
      (Draft.judge ⟨s.lookup env, p.path, p.class?⟩ env.config.skipDeprecated d).1 := by
  unfold State.judge
  dsimp only
  split <;> rfl

theorem warnAll_surroundings (i : ClassId) (s : State) (ws : List Warning) :
    SameSurroundings i s (s.warnAll ws) :=
  List.foldlRecOn (motive := fun t : State => SameSurroundings i s t) ws State.warn (.refl s)
    fun _ ht _ _ => ht.trans (.of_eq rfl rfl rfl rfl)

theorem store_judge (s : State) (env : Env) (p : Place) (d : FunctionDecl) :
    (s.judge env p d).2.store = s.store := by
  unfold State.judge
  dsimp only
  split <;> exact s.store_warnAll _

theorem judge_surroundings (i : ClassId) (s : State) (env : Env) (p : Place) (d : FunctionDecl) :
    SameSurroundings i s (s.judge env p d).2 := by
  unfold State.judge
  dsimp only
  split
  · exact (warnAll_surroundings i s _).trans (.of_eq rfl rfl rfl rfl)
  · exact warnAll_surroundings i s _

/-- The function that a declaration gives its class, if it gives one. -/
def memberOf (env : Env) (path : List String) (i : ClassId) (s : State) (d : FunctionDecl) :
    Option Function :=
  match (s.judge env ⟨some i, path⟩ d).1 with
  | .built f =>
    if f.kind = .destructor ∨ f.kind = .constructor ∧ d.access = .priv then none
    else
      let c := s.store.get i
      some (finishMember s c { f with attrs := f.attrs.insertIf c.isNamespace .static })
  | _ => none

theorem memberOf_eq_some_iff {env : Env} {path : List String} {i : ClassId} {s : State}
    {d : FunctionDecl} {f : Function} : memberOf env path i s d = some f ↔
      ∃ g, (Draft.judge ⟨s.lookup env, path, some i⟩ env.config.skipDeprecated d).1 = .built g ∧
        ¬ (g.kind = .destructor ∨ g.kind = .constructor ∧ d.access = .priv) ∧
        finishMember s (s.store.get i)
          { g with attrs := g.attrs.insertIf (s.store.get i).isNamespace .static } = f := by
  rw [← judge_fst s env ⟨some i, path⟩ d]
  unfold memberOf
  cases (s.judge env ⟨some i, path⟩ d).1 with
  | built g =>
    dsimp only
    split
    · next hleft =>
      refine ⟨fun h => (by cases h), ?_⟩
      rintro ⟨_, hg, hkept, -⟩
      cases hg
      exact absurd hleft hkept
    · next hkept =>
      refine ⟨fun h => ⟨g, rfl, hkept, Option.some.inj h⟩, ?_⟩
      rintro ⟨_, hg, -, rfl⟩
      cases hg
      rfl
  | ignored => simp
  | rejected => simp

theorem memberOf_congr {i : ClassId} {s t : State} (h : SameSurroundings i s t) (env : Env)
    (path : List String) : memberOf env path i s = memberOf env path i t := by
  funext d
  have hverdict : (s.judge env ⟨some i, path⟩ d).1 = (t.judge env ⟨some i, path⟩ d).1 := by
    rw [judge_fst, judge_fst, (h.draft env path).judge]
  unfold memberOf
  rw [hverdict]
  simp only [BoundClass.isNamespace, h.entry, h.finishMember]

theorem memberOf_eq_none {env : Env} {path : List String} {i : ClassId} {s : State}
    {d : FunctionDecl} (h : ∀ f, (s.judge env ⟨some i, path⟩ d).1 ≠ .built f) :
    memberOf env path i s d = none := by
  unfold memberOf
  split
  · next f hf => exact absurd hf (h f)
  · rfl

section
variable (env : Env) (path : List String) {i : ClassId} {s : State}

theorem addMember_surroundings (i : ClassId) (s : State) (d : FunctionDecl) :
    SameSurroundings i s (addMember env ⟨some i, path⟩ i s d) := by
  have hjudge := judge_surroundings i s env ⟨some i, path⟩ d
  have hmark : ∀ (t : State) marks, SameSurroundings i t (t.modifyClass i fun c =>
      { c with attrs := c.attrs.insertAll marks }) :=
    fun t _ => .modifyClass t i fun _ => ⟨rfl, rfl, rfl, rfl⟩
  unfold addMember
  dsimp only
  split
  · next t ht =>
    rwa [ht] at hjudge
  · next t ht =>
    rw [ht] at hjudge
    exact hjudge.trans (hmark t _)
  · next f t ht =>
    rw [ht] at hjudge
    split
    · exact hjudge.trans (hmark t _)
    · split
      · exact hjudge.trans (hmark t _)
      · exact (hjudge.trans (hmark t _)).trans (.modifyClass _ i fun _ => ⟨rfl, rfl, rfl, rfl⟩)

/-- A declaration appends what it gives, and nothing else. -/
theorem functions_addMember (hi : i < s.store.classes.size) (d : FunctionDecl) :
    ((addMember env ⟨some i, path⟩ i s d).store.get i).functions =
      (s.store.get i).functions ++ (memberOf env path i s d).toList := by
  have hjudge := judge_surroundings i s env ⟨some i, path⟩ d
  have hstore := store_judge s env ⟨some i, path⟩ d
  unfold addMember memberOf
  dsimp only
  split
  · next t ht =>
    rw [ht] at hstore ⊢
    have hstore : t.store = s.store := hstore
    rw [hstore]
    exact (List.append_nil _).symm
  · next r t ht =>
    rw [ht] at hstore ⊢
    have hstore : t.store = s.store := hstore
    rw [get_modifyClass_self (hstore ▸ hi), hstore]
    exact (List.append_nil _).symm
  · next f t ht =>
    rw [ht] at hjudge hstore ⊢
    have hstore : t.store = s.store := hstore
    have hlt : i < t.store.classes.size := hstore ▸ hi
    dsimp only
    by_cases hkind : f.kind = .destructor
    · rw [if_pos hkind, if_pos (.inl hkind), get_modifyClass_self hlt, hstore]
      exact (List.append_nil _).symm
    · rw [if_neg hkind]
      by_cases hpriv : f.kind = .constructor ∧ d.access = .priv
      · rw [if_pos hpriv, if_pos (.inr hpriv), get_modifyClass_self hlt, hstore]
        exact (List.append_nil _).symm
      · rw [if_neg hpriv, if_neg (not_or.mpr ⟨hkind, hpriv⟩), get_modifyClass_self,
          get_modifyClass_self hlt, hjudge.finishMember, hstore]
        · rfl
        · show i < (ClassStore.modify _ _ _).classes.size
          rwa [ClassStore.size_modify]

theorem foldl_addMember_surroundings (i : ClassId) (s : State) (l : List FunctionDecl) :
    SameSurroundings i s (l.foldl (addMember env ⟨some i, path⟩ i) s) :=
  List.foldlRecOn (motive := fun t => SameSurroundings i s t) l _ (.refl s)
    fun t ht d _ => ht.trans (addMember_surroundings env path i t d)

/-- Declarations append what each of them gives on its own. -/
theorem functions_foldl_addMember (hi : i < s.store.classes.size) (l : List FunctionDecl) :
    ((l.foldl (addMember env ⟨some i, path⟩ i) s).store.get i).functions =
      (s.store.get i).functions ++ l.filterMap (memberOf env path i s) := by
  induction l generalizing s with
  | nil => exact (List.append_nil _).symm
  | cons d l ih =>
    have hstep := addMember_surroundings env path i s d
    rw [List.foldl_cons, ih (hstep.size ▸ hi), functions_addMember env path hi d,
      ← memberOf_congr hstep, List.append_assoc]
    congr 1
    cases hm : memberOf env path i s d with
    | none => simp [hm]
    | some f => simp [hm]

theorem functions_addField (i : ClassId) (s : State) (v : VariableDecl) :
    ((addField env ⟨some i, path⟩ i s v).store.get i).functions = (s.store.get i).functions ∧
      (addField env ⟨some i, path⟩ i s v).store.classes.size = s.store.classes.size := by
  unfold addField
  dsimp only
  split
  · next f _ =>
    refine ⟨?_, ClassStore.size_modify _ _ _⟩
    show ((s.store.modify i _).get i).functions = _
    rw [ClassStore.get_modify]
    split <;> rfl
  · exact ⟨rfl, rfl⟩
  · exact ⟨rfl, rfl⟩
  · unfold State.warnIf
    split <;> exact ⟨rfl, rfl⟩

theorem functions_foldl_addField (i : ClassId) (s : State) (l : List VariableDecl) :
    ((l.foldl (addField env ⟨some i, path⟩ i) s).store.get i).functions =
        (s.store.get i).functions ∧
      (l.foldl (addField env ⟨some i, path⟩ i) s).store.classes.size = s.store.classes.size :=
  List.foldlRecOn (motive := fun t : State => (t.store.get i).functions =
    (s.store.get i).functions ∧ t.store.classes.size = s.store.classes.size) l _ ⟨rfl, rfl⟩
    fun t ht v _ =>
      have ⟨hfunctions, hsize⟩ := functions_addField env path i t v
      ⟨hfunctions.trans ht.1, hsize.trans ht.2⟩

end

/-! ### What the rules add -/

/-- The functions that rules add at a place, up to the first that cannot be made. -/
def addedMembers (d : Draft) : List AddedFunction → List Function
  | [] => []
  | a :: l =>
    match d.added a with
    | .ok (f, _) => f :: addedMembers d l
    | .error _ => []

theorem addedMembers_congr {d e : Draft} (h : d.Agrees e) : addedMembers d = addedMembers e := by
  funext l
  induction l with
  | nil => rfl
  | cons a l ih =>
    unfold addedMembers
    rw [h.added, ih]

section
variable {env : Env} {path : List String} {i : ClassId} {s : State}

/-- The step by which the rules append one function to a class. -/
def addAdded (env : Env) (path : List String) (i : ClassId) (a : AddedFunction) : Build Unit := do
  let f ← makeAdded env ⟨some i, path⟩ (some i) a
  modify (·.modifyClass i (·.addFunction f))

theorem addAdded_of_ok {a : AddedFunction} {f : Function} {ws : List Warning}
    (h : Draft.added ⟨s.lookup env, path, some i⟩ a = .ok (f, ws)) :
    addAdded env path i a s = .ok ⟨⟩ ((s.warnAll ws).modifyClass i (·.addFunction f)) := by
  have hget : (get : Build State) s = .ok s s := rfl
  have hmake : makeAdded env ⟨some i, path⟩ (some i) a s = .ok f (s.warnAll ws) := by
    unfold makeAdded
    rw [Build.bind_of_ok hget]
    simp only [h]
    rfl
  unfold addAdded
  rw [Build.bind_of_ok hmake]
  rfl

theorem addAdded_of_error {a : AddedFunction} {e : Error}
    (h : Draft.added ⟨s.lookup env, path, some i⟩ a = .error e) :
    ∃ e', addAdded env path i a s = .error e' s := by
  have hget : (get : Build State) s = .ok s s := rfl
  have hmake : ∃ e', makeAdded env ⟨some i, path⟩ (some i) a s = .error e' s := by
    unfold makeAdded
    rw [Build.bind_of_ok hget]
    simp only [h]
    exact ⟨_, rfl⟩
  obtain ⟨e', hmake⟩ := hmake
  exact ⟨e', Build.bind_of_error hmake⟩

/-- The rules append what they add. -/
theorem functions_forM_addAdded (hi : i < s.store.classes.size) (l : List AddedFunction) :
    ((Build.after (l.forM (addAdded env path i)) s).store.get i).functions =
      (s.store.get i).functions ++ addedMembers ⟨s.lookup env, path, some i⟩ l := by
  induction l generalizing s with
  | nil => exact (List.append_nil _).symm
  | cons a l ih =>
    rw [Build.after_forM_cons]
    unfold addedMembers
    cases hadded : Draft.added ⟨s.lookup env, path, some i⟩ a with
    | error e =>
      obtain ⟨e', he⟩ := addAdded_of_error hadded
      rw [he]
      exact (List.append_nil _).symm
    | ok r =>
      obtain ⟨f, ws⟩ := r
      have hsize : i < (s.warnAll ws).store.classes.size := by rwa [State.store_warnAll]
      have hsame : SameSurroundings i s ((s.warnAll ws).modifyClass i (·.addFunction f)) :=
        (warnAll_surroundings i s ws).trans (.modifyClass _ i fun _ => ⟨rfl, rfl, rfl, rfl⟩)
      rw [addAdded_of_ok hadded]
      dsimp only
      rw [ih (hsame.size ▸ hi), get_modifyClass_self hsize, State.store_warnAll,
        ← addedMembers_congr (hsame.draft env path)]
      exact List.append_assoc _ [f] _

theorem functions_fillAdded (hi : i < s.store.classes.size) :
    ((Build.after (fillAdded env ⟨some i, path⟩ i) s).store.get i).functions =
      (s.store.get i).functions ++
        addedMembers ⟨s.lookup env, path, some i⟩ (s.store.get i).entry.added := by
  unfold fillAdded Entry.added
  rw [Build.after_get_bind]
  dsimp only
  cases (s.store.get i).entry.rules? with
  | none => exact (List.append_nil _).symm
  | some rules => exact functions_forM_addAdded hi rules.added

end

/-! ### All members of a class -/

/-- The functions that a class or namespace gets are those that its declarations give, one by one
and in order, and then those of the rules. What a declaration gives depends on its surroundings
alone: without a declaration that is ignored or rejected, the class gets the same functions. -/
theorem members_isolated (env : Env) (path : List String) (i : ClassId) (d : Declarations)
    (s : State) (hi : i < s.store.classes.size) :
    let u := d.vars.foldl (addField env ⟨some i, path⟩ i) s
    let members (d : Declarations) :=
      ((Build.after (addMembers env ⟨some i, path⟩ i d) s).store.get i).functions
    members d = (s.store.get i).functions ++ d.functions.filterMap (memberOf env path i u) ++
        addedMembers ⟨u.lookup env, path, some i⟩ (u.store.get i).entry.added ∧
      (∀ t, SameSurroundings i u t → memberOf env path i u = memberOf env path i t) ∧
      ∀ xs f ys, d.functions = xs ++ f :: ys →
        (∀ g, ((xs.foldl (addMember env ⟨some i, path⟩ i) u).judge env ⟨some i, path⟩ f).1 ≠
          .built g) →
        members { d with functions := xs ++ ys } = members d := by
  intro u members
  obtain ⟨hu, husize⟩ := functions_foldl_addField env path i s d.vars
  have hiu : i < u.store.classes.size := husize ▸ hi
  have hmembers : ∀ fs, members { d with functions := fs } =
      (s.store.get i).functions ++ fs.filterMap (memberOf env path i u) ++
        addedMembers ⟨u.lookup env, path, some i⟩ (u.store.get i).entry.added := by
    intro fs
    have hsame := foldl_addMember_surroundings env path i u fs
    calc members { d with functions := fs }
        = ((Build.after (fillAdded env ⟨some i, path⟩ i)
            (fs.foldl (addMember env ⟨some i, path⟩ i) u)).store.get i).functions := rfl
      _ = _ := functions_fillAdded (hsame.size ▸ hiu)
      _ = _ := by
        rw [functions_foldl_addMember env path hiu, hu, ← addedMembers_congr (hsame.draft env path),
          ← hsame.entry]
  refine ⟨hmembers d.functions, fun t ht => memberOf_congr ht env path, ?_⟩
  intro xs f ys hsplit hrejected
  have hnone : memberOf env path i u f = none := by
    rw [memberOf_congr (foldl_addMember_surroundings env path i u xs)]
    exact memberOf_eq_none hrejected
  have hfilter : d.functions.filterMap (memberOf env path i u) =
      (xs ++ ys).filterMap (memberOf env path i u) := by
    rw [hsplit, List.filterMap_append, List.filterMap_cons_none hnone, ← List.filterMap_append]
  rw [hmembers (xs ++ ys), ← hfilter]
  exact (hmembers d.functions).symm

theorem members_isolated_box :
    let env : Env := .make {} {}
    let s : State := {
      db := .initial, store := { classes := #[{ entry := ⟨none, "Box", .complex .object {}⟩ }] } }
    let put : FunctionDecl := { name := "put" }
    let get : FunctionDecl := { name := "get", returnType := .ofName "Unknown" }
    let members (functions : List FunctionDecl) :=
      ((Build.after (addMembers env ⟨some 0, ["Box"]⟩ 0 { functions }) s).store.get 0).functions
    0 < s.store.classes.size ∧ members [put, get, put] = members [put, put] ∧
      (members [put, put]).map (·.name) = ["put", "put"] := by
  intro env s put get members
  have hsize : 0 < s.store.classes.size := by decide
  refine ⟨hsize, ?_, by decide +kernel⟩
  have hisolated := members_isolated env ["Box"] 0 { functions := [put, get, put] } s hsize
  refine (hisolated.2.2 [put] get [put] rfl fun g hg => ?_).symm
  have hrejected : ∃ r, ((addMember env ⟨some 0, ["Box"]⟩ 0 s put).judge env
      ⟨some 0, ["Box"]⟩ get).1 = .rejected r := by
    subst get put s env
    exact ⟨_, by with_unfolding_all rfl⟩
  obtain ⟨r, hr⟩ := hrejected
  have hbuilt : ((addMember env ⟨some 0, ["Box"]⟩ 0 s put).judge env
      ⟨some 0, ["Box"]⟩ get).1 = .built g := hg
  rw [hr] at hbuilt
  cases hbuilt

end Assembly
end BindingModel
