import BindingModel.Proofs.Assembly.Evolution
import BindingModel.Proofs.Assembly.Outcome
import BindingModel.Proofs.Graph.Dependencies

/-! The classes of a finished model stand after the classes that they need in that model: nothing
that is done after sorting touches an entry, a link or an argument of a class. -/
namespace BindingModel
namespace Api

/-- What the needs of a class depend on: its entry, its links and the arguments of its functions. -/
structure ClassNeeds where
  entry : Entry
  base? : Option ClassId
  enclosing? : Option ClassId
  templateBase? : Option ClassId
  interfaces : List ClassId
  arguments : List (FunctionKind × List Argument)

namespace BoundClass
variable {c d : BoundClass}

def needs (c : BoundClass) : ClassNeeds where
  entry := c.entry
  base? := c.base?
  enclosing? := c.enclosing?
  templateBase? := c.templateBase?
  interfaces := c.interfaces
  arguments := c.functions.map fun f => (f.kind, f.args)

theorem needs_addExternalConversion (c : BoundClass) (r : FunctionRef) :
    (c.addExternalConversion r).needs = c.needs := by
  unfold addExternalConversion
  split <;> rfl

theorem entry_eq_of_needs (h : c.needs = d.needs) : c.entry = d.entry :=
  congrArg ClassNeeds.entry h

theorem isInterface_eq_of_needs (h : c.needs = d.needs) : c.isInterface = d.isInterface := by
  unfold isInterface
  rw [entry_eq_of_needs h]

theorem exists_function_of_needs (h : c.needs = d.needs) {f : Function} (hf : f ∈ c.functions) :
    ∃ g ∈ d.functions, g.isConstructor = f.isConstructor ∧ g.args = f.args := by
  have hmem : (f.kind, f.args) ∈ d.functions.map fun f => (f.kind, f.args) := by
    have harguments : c.needs.arguments = d.needs.arguments := congrArg ClassNeeds.arguments h
    show (f.kind, f.args) ∈ d.needs.arguments
    rw [← harguments]
    exact List.mem_map_of_mem hf
  obtain ⟨g, hg, he⟩ := List.mem_map.mp hmem
  obtain ⟨hk, ha⟩ := Prod.mk.inj he
  exact ⟨g, hg, by unfold Function.isConstructor; rw [hk], ha⟩

end BoundClass

namespace ClassStore

/-- The same classes are live, and each needs the same. -/
structure SameNeeds (s t : ClassStore) : Prop where
  isLive : s.isLive = t.isLive
  needs : ∀ i, (s.get i).needs = (t.get i).needs

namespace SameNeeds
variable {s t u : ClassStore} {all : List ClassId}

theorem refl (s : ClassStore) : s.SameNeeds s := ⟨rfl, fun _ => rfl⟩

theorem symm (h : s.SameNeeds t) : t.SameNeeds s := ⟨h.isLive.symm, fun i => (h.needs i).symm⟩

theorem trans (h : s.SameNeeds t) (k : t.SameNeeds u) : s.SameNeeds u :=
  ⟨h.isLive.trans k.isLive, fun i => (h.needs i).trans (k.needs i)⟩

theorem modify (s : ClassStore) (i : ClassId) {f : BoundClass → BoundClass}
    (hf : ∀ c : BoundClass, (f c).needs = c.needs) : s.SameNeeds (s.modify i f) := by
  refine ⟨?_, fun j => ?_⟩
  · funext j
    simp only [ClassStore.isLive, ClassStore.modify, Array.size_modify]
    rfl
  · rw [get_modify]
    split
    · exact (hf _).symm
    · rfl

theorem foldl {α : Type} {f : ClassStore → α → ClassStore}
    (hf : ∀ (s : ClassStore) a, s.SameNeeds (f s a)) (l : List α) (s : ClassStore) :
    s.SameNeeds (l.foldl f s) :=
  List.foldlRecOn l f (refl s) fun t ht a _ => ht.trans (hf t a)

theorem base?_eq (h : s.SameNeeds t) : s.base? = t.base? := by
  funext i
  have hlink : (s.get i).base? = (t.get i).base? := congrArg ClassNeeds.base? (h.needs i)
  unfold ClassStore.base? follow?
  rw [h.isLive, hlink]

theorem interfaces_eq (h : s.SameNeeds t) : s.interfaces = t.interfaces := by
  funext i
  have hlinks : (s.get i).interfaces = (t.get i).interfaces :=
    congrArg ClassNeeds.interfaces (h.needs i)
  unfold ClassStore.interfaces
  rw [h.isLive, hlinks]

theorem link (h : s.SameNeeds t) {c x : ClassId} (hl : s.Link c x) : t.Link c x := by
  have hfollow : s.follow? = t.follow? := by
    funext link?
    simp only [follow?, h.isLive]
  have hneeds := h.needs c
  cases hl with
  | enclosing hx =>
    have henclosing : (s.get c).enclosing? = (t.get c).enclosing? :=
      congrArg ClassNeeds.enclosing? hneeds
    exact .enclosing (by rwa [enclosing?, ← hfollow, ← henclosing])
  | base hx => exact .base (by rwa [← h.base?_eq])
  | interface hx => exact .interface (by rwa [← h.interfaces_eq])
  | templateBase hx =>
    have htemplate : (s.get c).templateBase? = (t.get c).templateBase? :=
      congrArg ClassNeeds.templateBase? hneeds
    exact .templateBase (by rwa [templateBase?, ← hfollow, ← htemplate])

theorem defaultsTo (h : s.SameNeeds t) {c x : ClassId} (hd : s.DefaultsTo all c x) :
    t.DefaultsTo all c x := by
  obtain ⟨hout, f, hf, hk, a, ha, hdef, hval, hcls, hown, hfind⟩ := hd
  obtain ⟨g, hg, hgk, hga⟩ := BoundClass.exists_function_of_needs (h.needs c) hf
  have hentry : ∀ i, (t.get i).entry = (s.get i).entry :=
    fun i => (BoundClass.entry_eq_of_needs (h.needs i)).symm
  have henclosing : (s.get x).enclosing? = (t.get x).enclosing? :=
    congrArg ClassNeeds.enclosing? (h.needs x)
  refine ⟨fun he => hout ?_, g, hg, hgk.trans hk, a, hga ▸ ha, hdef, hval, hcls, ?_, ?_⟩
  · rw [enclosing?, follow?, h.isLive, henclosing]
    exact he
  · rwa [hentry]
  · simpa only [hentry] using hfind

theorem reaches (h : s.SameNeeds t) {c x : ClassId} (hr : s.Reaches all c x) :
    t.Reaches all c x := by
  induction hr with
  | link hl => exact .link (h.link hl)
  | through _ hi hk hl ih =>
    rw [BoundClass.isInterface_eq_of_needs (h.needs _)] at hk
    exact .through ih hi hk (h.link hl)

theorem ordered (h : s.SameNeeds t) {l : List ClassId} (ho : s.Ordered all l) :
    t.Ordered all l := by
  refine ⟨ho.nodup, fun c => ?_, fun x hx c hc hne hn => ho.precedes x hx c hc hne ?_⟩
  · rw [← BoundClass.isInterface_eq_of_needs (h.needs c)]
    exact ho.mem_iff c
  · exact hn.imp h.symm.reaches h.symm.defaultsTo

end SameNeeds
end ClassStore
end Api

namespace Assembly
open Api

/-- The same classes are registered, and each needs the same. -/
structure KeepsOrder (s t : State) : Prop where
  registry : s.registry = t.registry
  store : s.store.SameNeeds t.store

namespace KeepsOrder

instance : Std.Refl KeepsOrder := ⟨fun _ => ⟨rfl, .refl _⟩⟩

instance : IsTrans State KeepsOrder :=
  ⟨fun _ _ _ h k => ⟨h.registry.trans k.registry, h.store.trans k.store⟩⟩

theorem refl (s : State) : KeepsOrder s s := refl_of KeepsOrder s

theorem trans {s t u : State} (h : KeepsOrder s t) (k : KeepsOrder t u) : KeepsOrder s u :=
  trans_of KeepsOrder h k

theorem modifyClass (s : State) (i : ClassId) {f : BoundClass → BoundClass}
    (hf : ∀ c : BoundClass, (f c).needs = c.needs) : KeepsOrder s (s.modifyClass i f) :=
  ⟨rfl, .modify s.store i hf⟩

theorem foldl {α : Type} {f : State → α → State} (hf : ∀ s a, KeepsOrder s (f s a))
    (l : List α) (s : State) : KeepsOrder s (l.foldl f s) :=
  List.foldlRecOn l f (refl s) fun t ht a _ => ht.trans (hf t a)

theorem warnAll (s : State) (ws : List Warning) : KeepsOrder s (s.warnAll ws) :=
  foldl (f := State.warn) (fun _ _ => ⟨rfl, .refl _⟩) ws s

end KeepsOrder

/-! ### What follows the sorting -/

theorem markClonable_sameNeeds (visits : Nat) (s : ClassStore) (i : ClassId) :
    s.SameNeeds (markClonable visits s i) := by
  unfold markClonable
  split
  · exact .modify s i fun _ => rfl
  · exact .refl s

theorem addConversion_keepsOrder (s : State) (r : FunctionRef) :
    KeepsOrder s (addConversion s r) := by
  unfold addConversion
  split
  · exact .refl s
  · split
    · exact .refl s
    · split
      · exact .modifyClass s _ fun c => c.needs_addExternalConversion r
      · exact .refl s

theorem linkCopies_keepsOrder (classes : List ClassId) (s : State) :
    KeepsOrder s (linkCopies classes s) := by
  refine KeepsOrder.foldl (fun t i => ?_) classes s
  have hmark : KeepsOrder t
      { t with store := markClonable (s.registry.members.length + 1) t.store i } :=
    ⟨rfl, markClonable_sameNeeds _ t.store i⟩
  exact hmark.trans (.foldl (fun s k => addConversion_keepsOrder s ⟨i, k⟩) _ _)

theorem orderInner_keepsOrder (classes : List ClassId) (s : State) :
    Outcome KeepsOrder (fun _ _ => True) (orderInner classes) s := by
  refine Outcome.forM fun i _ s _ => .get_bind ?_
  dsimp only
  split
  · split
    · exact .set (.modifyClass s i fun _ => rfl)
    · exact .throw trivial
  · exact .pure _

theorem makeAdded_keepsOrder (env : Env) (p : Place) (class? : Option ClassId) (a : AddedFunction)
    (s : State) : Outcome KeepsOrder (fun _ _ => True) (makeAdded env p class? a) s := by
  refine .get_bind ?_
  dsimp only
  split
  · exact .andThen (.set (.warnAll s _)) fun _ _ => .pure _
  · exact .throw trivial

theorem fillGlobalAdded_keepsOrder (env : Env) (s : State) :
    Outcome KeepsOrder (fun _ _ => True) (fillGlobalAdded env) s := by
  refine .get_bind (Outcome.forM fun a _ s _ => ?_)
  exact .andThen (makeAdded_keepsOrder env {} none a s) fun _ _ => .modify ⟨rfl, .refl _⟩

theorem settlePoliciesAll_keepsOrder (classes : List ClassId) (s : State) :
    KeepsOrder s (settlePoliciesAll classes s) := by
  refine ⟨rfl, ClassStore.SameNeeds.foldl (fun t i => ?_) classes s.store⟩
  refine .modify t i fun c => ?_
  unfold BoundClass.needs
  simp only [List.map_map]
  rfl

/-- A successful run sorts the registered classes, and what it does then keeps their order. -/
theorem run_sorts {env : Env} {classes : List ClassId} {s₀ s : State}
    (h : run env s₀ = .ok classes s) :
    ∃ t, t.store.sortClasses t.registry.members = .ok classes ∧ KeepsOrder t s := by
  obtain ⟨s₁, s₂, s₃, s₄, -, -, hsort, hinner, hadded, rfl⟩ := run_stages h
  refine ⟨complete env s₂, hsort, ?_⟩
  have hlinked := linkCopies_keepsOrder classes (complete env s₂)
  have hordered := hlinked.trans ((orderInner_keepsOrder classes _).of_ok hinner)
  have hcompleted := hordered.trans ((fillGlobalAdded_keepsOrder env s₃).of_ok hadded)
  exact hcompleted.trans (settlePoliciesAll_keepsOrder classes s₄)

theorem run_ordered {env : Env} {classes : List ClassId} {s₀ s : State}
    (h : run env s₀ = .ok classes s) : s.store.Ordered s.registry.members classes := by
  obtain ⟨t, hsort, hkeep⟩ := run_sorts h
  have hordered := hkeep.store.ordered (ClassStore.ordered_of_sortClasses hsort)
  rwa [hkeep.registry] at hordered

/-- Sorting reports a cycle exactly when the needs between different classes form one, and otherwise
puts every class after those that it needs. So do the classes of a finished model stand: among all
registered classes, by the links and the constructors of that model. -/
theorem classes_ordered :
    (∀ (s : ClassStore) (all : List ClassId),
      ((∃ cycle, s.sortClasses all = .error (.cyclicDependency cycle)) ↔ Cyclic (s.Needs all)) ∧
      (¬ Cyclic (s.Needs all) → ∃ l, s.sortClasses all = .ok l ∧ s.Ordered all l)) ∧
    ∀ (config : Config) (header : Header) (db : Database) (m : Model),
      (assemble config header db).result = .ok m →
      ∃ classes s, run (.make config header) { db } = .ok classes s ∧ m = s.model classes ∧
        (∀ c, c ∈ s.registry.members ↔ c ∈ m.classes ∨ c ∈ m.interfaces) ∧
        m.store.Ordered s.registry.members m.classes := by
  refine ⟨fun s all => ⟨ClassStore.sortClasses_eq_error_iff, ClassStore.sortClasses_eq_ok⟩, ?_⟩
  intro config header db m hm
  obtain ⟨classes, s, hrun, rfl⟩ := assemble_eq_ok.mp hm
  have hord := run_ordered hrun
  refine ⟨classes, s, hrun, rfl, fun c => ?_, hord⟩
  show c ∈ s.registry.members ↔
    c ∈ classes ∨ c ∈ s.registry.members.filter fun i => (s.store.get i).isInterface
  rw [hord.mem_iff, List.mem_filter]
  cases (s.store.get c).isInterface <;> simp

end Assembly
end BindingModel
