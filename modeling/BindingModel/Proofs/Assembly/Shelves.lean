import BindingModel.Proofs.Assembly.Failure
import BindingModel.Proofs.Assembly.Settling
import BindingModel.Proofs.Assembly.Visits

/-! No class is lost and none is filed twice: what the first pass filed is what the finished model
lists. -/
namespace BindingModel
open Api Header

/-- The list of a model for classes of a kind. -/
def Api.Model.shelf (m : Model) : EntryKind → List ClassId
  | .container => m.templates
  | .smartPointer => m.smartPointers
  | .interface => m.interfaces
  | _ => m.classes

namespace Assembly

/-- Inner classes may stand in another order; nothing else that ties classes is different. -/
structure Arranged (s t : State) : Prop where
  filing : t.filing = s.filing
  released : t.store.released = s.store.released
  size : t.store.classes.size = s.store.classes.size
  ties : ∀ c, (t.store.get c).ties =
    { (s.store.get c).ties with inner := (t.store.get c).inner }
  inner : ∀ c, (s.store.get c).inner.Nodup → (t.store.get c).inner.Perm (s.store.get c).inner

namespace Arranged
variable {s t u : State}

theorem of_quiet (h : Quiet s t) : Arranged s t := by
  have hinner : ∀ c, (t.store.get c).inner = (s.store.get c).inner := fun c =>
    BoundClass.inner_eq_of_ties (h.ties c)
  refine ⟨h.filing, h.released, h.size, fun c => ?_, fun c _ => .of_eq (hinner c)⟩
  rw [h.ties c, hinner c]
  rfl

theorem refl (s : State) : Arranged s s := of_quiet (.refl s)

theorem trans (h : Arranged s t) (k : Arranged t u) : Arranged s u := by
  refine ⟨k.filing.trans h.filing, k.released.trans h.released, k.size.trans h.size, fun c => ?_,
    fun c hc => ?_⟩
  · rw [k.ties c, h.ties c]
  · have hinner := h.inner c hc
    exact (k.inner c (hinner.nodup_iff.mpr hc)).trans hinner

instance : Std.Refl Arranged := ⟨refl⟩

instance : IsTrans State Arranged := ⟨fun _ _ _ => trans⟩

section
variable (h : Arranged s t) (c : ClassId)
include h

theorem settled : t.settled = s.settled := congrArg Filing.settled h.filing

theorem head : (t.store.get c).head = (s.store.get c).head :=
  (congrArg ClassTies.head (h.ties c) :)

theorem base? : (t.store.get c).base? = (s.store.get c).base? :=
  (congrArg ClassTies.base? (h.ties c) :)

theorem templateBase? : (t.store.get c).templateBase? = (s.store.get c).templateBase? :=
  (congrArg ClassTies.templateBase? (h.ties c) :)

theorem interfaces : (t.store.get c).interfaces = (s.store.get c).interfaces :=
  (congrArg ClassTies.interfaces (h.ties c) :)

end

end Arranged

/-- Ordering the inner classes of a class loses none of them and repeats none. -/
theorem orderInner_arranged (classes : List ClassId) (s : State) :
    Outcome Arranged (fun _ _ => True) (orderInner classes) s := by
  refine Outcome.forM fun i _ t _ => .get_bind ?_
  dsimp only
  split
  · split
    · next l hl =>
      refine .set ⟨rfl, rfl, t.store.size_modify i _, fun c => ?_, fun c hc => ?_⟩
      · simp only [State.modifyClass, ClassStore.get_modify]
        split <;> rfl
      · show ((t.store.modify i _).get c).inner.Perm _
        rw [ClassStore.get_modify]
        split
        · next hi =>
          obtain ⟨rfl, -⟩ := hi
          obtain ⟨hnodup, hmem⟩ := ClassStore.nodup_of_orderClasses hl
          exact (List.perm_ext_iff_of_nodup hnodup hc).mpr hmem
        · exact .refl _
    · exact .throw trivial
  · exact .pure _

/-- A successful run creates all classes, fills them, links them to their bases, and after that only
arranges them. -/
theorem run_arranged {env : Env} {classes : List ClassId} {s₀ s : State}
    (h : run env s₀ = .ok classes s) :
    ∃ t u, declareAll env s₀ = .ok () t ∧ fillAll env t = .ok () u ∧ Quiet t u ∧
      Arranged (settleAll env u) s ∧ Evolves env.header (settleAll env u) s := by
  obtain ⟨t, u, v, w, hdeclare, hfill, -, hinner, hadded, rfl⟩ := run_stages h
  refine ⟨t, u, hdeclare, hfill, (fillAll_quiet env t).of_ok hfill, ?_, ?_⟩
  · have hcompleted : Arranged (settleAll env u) (complete env u) :=
      .of_quiet (complete_quiet env u)
    have hlinked := hcompleted.trans (.of_quiet (linkCopies_quiet classes _))
    have hordered := hlinked.trans ((orderInner_arranged classes _).of_ok hinner)
    have hglobal := hordered.trans (.of_quiet (fillGlobalAdded_quiet.of_ok hadded))
    exact hglobal.trans (.of_quiet (settlePoliciesAll_quiet classes w))
  · have hlinked :=
      (complete_evolves_settled (h := env.header) env u).trans (linkCopies_evolves classes _)
    have hordered := hlinked.trans ((orderInner_outcome classes _).of_ok hinner)
    have hglobal := hordered.trans (fillGlobalAdded_outcome.of_ok hadded)
    exact hglobal.trans (settlePoliciesAll_evolves classes w)

/-- The same classes are filed in the same places, and no inner class came or went. -/
structure Stocked (s t : State) : Prop where
  registry : t.registry = s.registry
  templates : t.templates = s.templates
  smartPointers : t.smartPointers = s.smartPointers
  size : t.store.classes.size = s.store.classes.size
  head : ∀ c, (t.store.get c).head = (s.store.get c).head
  inner : ∀ c, (s.store.get c).inner.Nodup → (t.store.get c).inner.Perm (s.store.get c).inner

namespace Stocked
variable {s t u : State}

theorem of_settling (h : Settling [] s t) : Stocked s t :=
  ⟨h.registry, h.templates, h.smartPointers, h.size, fun c => (h.gains c).head,
    fun c _ => .of_eq (h.gains c).inner⟩

theorem of_arranged (h : Arranged s t) : Stocked s t :=
  ⟨congrArg Filing.registry h.filing, congrArg Filing.templates h.filing,
    congrArg Filing.smartPointers h.filing, h.size, h.head, h.inner⟩

theorem trans (h : Stocked s t) (k : Stocked t u) : Stocked s u := by
  refine ⟨k.registry.trans h.registry, k.templates.trans h.templates,
    k.smartPointers.trans h.smartPointers, k.size.trans h.size,
    fun c => (k.head c).trans (h.head c), fun c hc => ?_⟩
  have hinner := h.inner c hc
  exact (k.inner c (hinner.nodup_iff.mpr hc)).trans hinner

theorem filed (h : Stocked s t) : t.filed = s.filed := by
  unfold State.filed
  rw [h.registry, h.templates, h.smartPointers]

theorem shelf (h : Stocked s t) (k : EntryKind) : t.shelf k = s.shelf k := by
  unfold State.shelf
  rw [h.registry, h.templates, h.smartPointers]

theorem entry (h : Stocked s t) (c : ClassId) : (t.store.get c).entry = (s.store.get c).entry :=
  BoundClass.entry_eq_of_head (h.head c)

end Stocked

/-- After the first pass of a successful run no class is filed any more. -/
theorem run_stocked {env : Env} {classes : List ClassId} {s₀ s : State}
    (h : run env s₀ = .ok classes s) :
    ∃ t, declareAll env s₀ = .ok () t ∧ Stocked t s := by
  obtain ⟨t, u, hdeclare, -, hfilled, harranged, -⟩ := run_arranged h
  have hsettled := (Settling.of_quiet hfilled).trans (settleAll_settling env u)
  exact ⟨t, hdeclare, (Stocked.of_settling hsettled).trans (.of_arranged harranged)⟩

/-- The ordered classes and the interfaces are the registered ones. -/
theorem allClasses_perm {s : State} {classes : List ClassId}
    (hord : s.store.Ordered s.registry.members classes) (hnodup : s.registry.members.Nodup) :
    (s.model classes).allClasses.Perm s.filed := by
  have hclasses : classes.Perm
      (s.registry.members.filter fun i => !(s.store.get i).isInterface) := by
    refine (List.perm_ext_iff_of_nodup hord.nodup (hnodup.filter _)).mpr fun c => ?_
    rw [hord.mem_iff, List.mem_filter, Bool.not_eq_true']
  have hregistered : (classes ++ s.registry.members.filter fun i =>
      (s.store.get i).isInterface).Perm s.registry.members :=
    (hclasses.append_right _).trans (List.perm_append_comm.trans (List.filter_append_perm _ _))
  exact (hregistered.append_right _).append_right _

theorem mem_shelf_model {s : State} {classes : List ClassId} {c : ClassId}
    (hord : s.store.Ordered s.registry.members classes)
    (hc : c ∈ s.shelf (s.store.get c).entry.kind) :
    c ∈ (s.model classes).shelf (s.store.get c).entry.kind := by
  have hinterface : (s.store.get c).isInterface = ((s.store.get c).entry.kind == .interface) := rfl
  cases hkind : (s.store.get c).entry.kind <;> rw [hkind] at hc hinterface
  case container => exact hc
  case smartPointer => exact hc
  case interface => exact List.mem_filter.mpr ⟨hc, hinterface⟩
  all_goals exact (hord.mem_iff c).mpr ⟨hc, hinterface⟩

/-- A model has one class for each declaration and typedef that the first pass accepts, created in
that order, and no other. Each class is listed once and by its kind; and its inner classes are those
that it had after the first pass, in another order. -/
theorem classes_filed {config : Config} {header : Header} {db : Database} {m : Model}
    (hm : (assemble config header db).result = .ok m) :
    (∀ v ∈ visits (.make config header) { db },
      v.accepted? = (v.class? (.make config header)).map fun c => (m.store.get c).entry) ∧
    (visits (.make config header) { db }).filterMap (·.class? (.make config header)) =
      List.range m.store.classes.size ∧
    m.allClasses.Perm (List.range m.store.classes.size) ∧
    (∀ c ∈ m.allClasses, c ∈ m.shelf (m.store.get c).entry.kind) ∧
    ∀ c, (m.store.get c).inner.Perm
      (((declareAll (.make config header)).after { db }).store.get c).inner := by
  obtain ⟨classes, s, hrun, rfl⟩ := assemble_eq_ok.mp hm
  obtain ⟨t, hdeclare, hstocked⟩ := run_stocked hrun
  have hdeclared := declareAll_adds (.make config header) { db } () t hdeclare
  have hpending := hdeclared.pending (Pending.initial db)
  have hperm : (s.model classes).allClasses.Perm s.filed := by
    refine allClasses_perm (run_ordered hrun) ?_
    rw [hstocked.registry]
    exact hpending.members_nodup
  rw [Build.after_of_ok hdeclare]
  refine ⟨fun v hv => ?_, ?_, ?_, fun c hc => ?_, fun c => hstocked.inner c (hpending.inner_nodup c)⟩
  · have hentry : ∀ c, ((s.model classes).store.get c).entry = (t.store.get c).entry :=
      hstocked.entry
    simp only [hentry]
    exact hdeclared.entries v hv
  · rw [hdeclared.classes, List.range_eq_range']
    show List.range' 0 _ = List.range' 0 s.store.classes.size
    rw [hstocked.size]
    rfl
  · refine hperm.trans ?_
    rw [hstocked.filed]
    show t.filed.Perm (List.range s.store.classes.size)
    rw [hstocked.size]
    exact hpending.perm
  · have hfiled : c ∈ t.filed := hstocked.filed ▸ hperm.mem_iff.mp hc
    refine mem_shelf_model (run_ordered hrun) ?_
    rw [hstocked.shelf, hstocked.entry]
    exact hpending.shelf c hfiled

/-- Rules for classes of five kinds, one of them inside another, and for a typedef of their own. -/
def shopRules : Database :=
  let (_, db) := Database.initial.add "Stack" (.complex .container {})
  let (_, db) := db.add "Handle" (.complex .smartPointer {})
  let (_, db) := db.add "Named" (.complex .interface {})
  let (_, db) := db.add "Shop" (.complex .namespaceScope {})
  let (_, db) := db.add "Shop::Item" (.complex .object {})
  let (_, db) := db.add "Shop::Item::Part" (.complex .object {})
  let (_, db) := db.add "Shop::Items" (.complex .object {})
  let (target, db) := db.create "Names" (.complex .object {})
  let source := "Stack<Named>"
  (db.add "Names" (.typedef source target)).2

def shopHeader : Header where
  global.classes := [
    { decls := { name := "Stack<T>" }, templateParams := ["T"] },
    { decls := { name := "Handle" } },
    { decls := { name := "Named" } },
    { decls := { name := "Unknown" } }]
  global.namespaces := [{
    decls := { name := "Shop", typedefs := [⟨"Items", .ofName "Stack", none⟩] }
    classes := [{ decls := { name := "Item" }, classes := [{ decls := { name := "Part" } }] }] }]

theorem classes_filed_shop :
    ∃ m, (assemble {} shopHeader shopRules).result = .ok m ∧
      (visits (.make {} shopHeader) { db := shopRules }).filterMap
        (·.class? (.make {} shopHeader)) = List.range 8 ∧
      m.allClasses.Perm (List.range 8) ∧ m.templates = [0] ∧ m.smartPointers = [1] ∧
      m.interfaces = [2] := by
  have hshape : (assemble {} shopHeader shopRules).result.toOption.map (fun m =>
      (m.store.classes.size, m.templates, m.smartPointers, m.interfaces)) =
        some (8, [0], [1], [2]) := by decide +kernel
  cases hm : (assemble {} shopHeader shopRules).result with
  | error e =>
    rw [hm] at hshape
    cases hshape
  | ok m =>
    rw [hm] at hshape
    obtain ⟨hsize, hrest⟩ := Prod.mk.inj (Option.some.inj hshape)
    obtain ⟨htemplates, hrest⟩ := Prod.mk.inj hrest
    obtain ⟨hpointers, hinterfaces⟩ := Prod.mk.inj hrest
    obtain ⟨-, hvisits, hperm, -⟩ := classes_filed hm
    rw [hsize] at hvisits hperm
    exact ⟨m, rfl, hvisits, hperm, htemplates, hpointers, hinterfaces⟩

end Assembly
end BindingModel
