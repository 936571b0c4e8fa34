import BindingModel.Proofs.Api.Ancestors
import BindingModel.Proofs.Assembly.FinishedOrder
import BindingModel.Proofs.FlagSet

/-! Which classes are clonable: those whose nearest copy function is public, and those for which the
search ended before it came to one. It visits a class as often as it finds it among the bases of
another, and the number of visits is bounded by that of the registered classes. -/
namespace BindingModel
open Api Assembly

namespace Api.ClassStore

/-- The bases of a class in the order in which a search from `i` puts them into its queue. -/
def copyBases (s : ClassStore) (i j : ClassId) : List ClassId :=
  if j = i then s.bases j else s.interfaces j ++ (s.base? j).toList

/-- The classes that are visited for a copy function of `i`, the class itself apart. -/
def copyVisits (s : ClassStore) (n : Nat) (i : ClassId) : List ClassId :=
  Search.taken (fun j => s.interfaces j ++ (s.base? j).toList) n (s.bases i)

/-- The copy function of a class. -/
def copyFunctionOf? (s : ClassStore) (i : ClassId) : Option Function := copyFunction? (s.get i)

variable {s t : ClassStore} {i : ClassId} {n : Nat}

theorem mem_copyBases {j k : ClassId} : k ∈ s.copyBases i j ↔ k ∈ s.bases j := by
  unfold copyBases bases
  split
  · rfl
  · rw [List.mem_append, List.mem_append, or_comm]

theorem copyBases_breadthFirst (s : ClassStore) (i : ClassId) :
    Search.BreadthFirst (s.copyBases i) i (Search.breadthFirst (s.copyBases i) s.classes.size i) :=
  breadthFirst_of_isLive (fun _ _ hk => isLive_of_mem_bases (mem_copyBases.mp hk)) i

theorem nearestCopy?_eq (s : ClassStore) (n : Nat) (queue : List ClassId) :
    nearestCopy? s n queue =
      (Search.taken (fun j => s.interfaces j ++ (s.base? j).toList) n queue).findSome?
        s.copyFunctionOf? := by
  induction n generalizing queue with
  | zero => rfl
  | succ n ih =>
    cases queue with
    | nil => rfl
    | cons i queue =>
      rw [nearestCopy?, Search.taken, List.findSome?_cons, ih, List.append_assoc]
      unfold copyFunctionOf?
      cases copyFunction? (s.get i) <;> rfl

theorem isClonable_eq (s : ClassStore) (n : Nat) (i : ClassId) : isClonable s n i =
    ((i :: s.copyVisits n i).findSome? s.copyFunctionOf?).all (·.visibility = .pub) := by
  unfold isClonable
  rw [nearestCopy?_eq, List.findSome?_cons]
  unfold copyVisits copyFunctionOf?
  cases copyFunction? (s.get i) <;> rfl

/-- Among the visited classes the first copy function is the nearest one, or there is none. -/
theorem findSome?_copyVisits {order : List ClassId}
    (horder : Search.BreadthFirst (s.copyBases i) i order) :
    (i :: s.copyVisits n i).findSome? s.copyFunctionOf? = none ∨
      (i :: s.copyVisits n i).findSome? s.copyFunctionOf? =
        order.findSome? s.copyFunctionOf? := by
  cases horder.explores with
  | skip hi => cases hi
  | @visit _ _ order _ _ hrest =>
    rw [List.findSome?_cons, List.findSome?_cons]
    cases hown : s.copyFunctionOf? i with
    | some f => exact .inr rfl
    | none =>
      have hself : s.copyBases i i = s.bases i := if_pos rfl
      rw [List.nil_append, List.nil_append, hself] at hrest
      refine hrest.findSome?_taken (fun j hj => ?_) (fun j k hk => ?_) (fun j hj k hk => ?_)
        (fun j hj => ?_) n
      · have hj : j ≠ i := by simpa using hj
        exact (if_neg hj).symm
      · have hk : k ∈ s.interfaces j ++ (s.base? j).toList := hk
        rw [mem_copyBases, bases, List.mem_append, or_comm, ← List.mem_append]
        exact hk
      · obtain rfl := List.mem_singleton.mp hj
        exact .inr (mem_copyBases.mp hk)
      · obtain rfl := List.mem_singleton.mp hj
        exact hown

/-- The nearest copy function decides if it is visited. A class for which none is visited is
clonable. -/
theorem isClonable_iff {order : List ClassId}
    (horder : Search.BreadthFirst (s.copyBases i) i order) : isClonable s n i = true ↔
      (∀ f, order.findSome? s.copyFunctionOf? = some f → f.visibility = .pub) ∨
        ∀ j ∈ i :: s.copyVisits n i, s.copyFunctionOf? j = none := by
  rw [isClonable_eq, ← List.findSome?_eq_none_iff]
  rcases findSome?_copyVisits (n := n) horder with hnone | hnearest
  · simp [hnone]
  · rw [hnearest]
    cases order.findSome? s.copyFunctionOf? <;> simp

/-! ### The pass -/

/-- The same links and the same functions. -/
structure SameCopies (s t : ClassStore) : Prop where
  size : s.classes.size = t.classes.size
  needs : s.SameNeeds t
  functions : ∀ i, (s.get i).functions = (t.get i).functions

namespace SameCopies

theorem refl (s : ClassStore) : s.SameCopies s := ⟨rfl, .refl s, fun _ => rfl⟩

theorem trans {u : ClassStore} (h : s.SameCopies t) (k : t.SameCopies u) : s.SameCopies u :=
  ⟨h.size.trans k.size, h.needs.trans k.needs, fun i => (h.functions i).trans (k.functions i)⟩

theorem modify (s : ClassStore) (i : ClassId) {f : BoundClass → BoundClass}
    (hneeds : ∀ c : BoundClass, (f c).needs = c.needs)
    (hfunctions : ∀ c : BoundClass, (f c).functions = c.functions) :
    s.SameCopies (s.modify i f) := by
  refine ⟨(size_modify s i f).symm, .modify s i hneeds, fun j => ?_⟩
  rw [get_modify]
  split
  · exact (hfunctions _).symm
  · rfl

theorem isClonable (h : s.SameCopies t) : isClonable s = isClonable t := by
  have hcopies : s.copyFunctionOf? = t.copyFunctionOf? := by
    funext i
    unfold copyFunctionOf? copyFunction?
    rw [h.functions]
  funext n i
  rw [isClonable_eq, isClonable_eq]
  unfold copyVisits bases
  rw [h.needs.base?_eq, h.needs.interfaces_eq, hcopies]

end SameCopies
end Api.ClassStore

namespace Assembly

/-- The class is marked as clonable. -/
def Clonable (s : State) (i : ClassId) : Prop := (s.store.get i).has .hasCloneOperator = true

variable {s : State} {i j : ClassId} {n : Nat}

theorem markClonable_spec (n : Nat) (s : State) (i : ClassId) :
    s.store.SameCopies (markClonable n s.store i) ∧
      ∀ j, Clonable { s with store := markClonable n s.store i } j ↔
        Clonable s j ∨ i = j ∧ j < s.store.classes.size ∧ isClonable s.store n j = true := by
  unfold markClonable
  split
  · next hclonable =>
    refine ⟨.modify _ i (fun _ => rfl) fun _ => rfl, fun j => ?_⟩
    unfold Clonable
    dsimp only
    rw [ClassStore.get_modify]
    split
    · next hj =>
      obtain ⟨rfl, hsize⟩ := hj
      unfold BoundClass.addAttr BoundClass.has
      rw [FlagSet.has_insert]
      simp [hsize, hclonable]
    · next hj =>
      constructor
      · exact .inl
      · rintro (h | ⟨rfl, hsize, -⟩)
        · exact h
        · exact absurd ⟨rfl, hsize⟩ hj
  · next hclonable =>
    refine ⟨.refl _, fun j => ⟨.inl, ?_⟩⟩
    rintro (h | ⟨rfl, -, h⟩)
    · exact h
    · exact absurd h hclonable

theorem addConversion_spec (s : State) (r : FunctionRef) :
    s.store.SameCopies (addConversion s r).store ∧
      ∀ j, Clonable (addConversion s r) j ↔ Clonable s j := by
  have hfile : ∀ c : BoundClass, (c.addExternalConversion r).functions = c.functions ∧
      (c.addExternalConversion r).attrs = c.attrs := by
    intro c
    unfold BoundClass.addExternalConversion
    split <;> exact ⟨rfl, rfl⟩
  have hsame : s.store.SameCopies s.store ∧ ∀ j, Clonable s j ↔ Clonable s j :=
    ⟨.refl _, fun _ => Iff.rfl⟩
  unfold addConversion
  split
  · exact hsame
  · split
    · exact hsame
    · split
      · next target _ =>
        refine ⟨.modify s.store target (fun c => c.needs_addExternalConversion r)
          fun c => (hfile c).1, fun j => ?_⟩
        unfold Clonable State.modifyClass
        dsimp only
        rw [ClassStore.get_modify]
        split
        · unfold BoundClass.has
          rw [(hfile _).2]
        · rfl
      · exact hsame

theorem addConversions_spec (s : State) (i : ClassId) :
    s.store.SameCopies (addConversions s i).store ∧
      ∀ j, Clonable (addConversions s i) j ↔ Clonable s j :=
  List.foldlRecOn (motive := fun t : State => s.store.SameCopies t.store ∧
      ∀ j, Clonable t j ↔ Clonable s j) _ _ ⟨.refl _, fun _ => Iff.rfl⟩
    fun t ht k _ => by
      obtain ⟨hsame, hmark⟩ := addConversion_spec t ⟨i, k⟩
      exact ⟨ht.1.trans hsame, fun j => (hmark j).trans (ht.2 j)⟩

/-- Marks change nothing that marks depend on, so every class is marked as if it were the first. -/
theorem clonable_foldl (n : Nat) (l : List ClassId) (s : State) (j : ClassId) :
    Clonable (l.foldl
        (fun s i => addConversions { s with store := markClonable n s.store i } i) s) j ↔
      Clonable s j ∨ j ∈ l ∧ j < s.store.classes.size ∧ isClonable s.store n j = true := by
  induction l generalizing s with
  | nil => simp
  | cons i l ih =>
    obtain ⟨hsame, hmark⟩ := markClonable_spec n s i
    obtain ⟨hsame', hmark'⟩ := addConversions_spec { s with store := markClonable n s.store i } i
    have hall := hsame.trans hsame'
    rw [List.foldl_cons, ih, hmark', hmark, ← hall.size, ← hall.isClonable, List.mem_cons]
    constructor
    · rintro ((h | ⟨rfl, h⟩) | ⟨hj, h⟩)
      · exact .inl h
      · exact .inr ⟨.inl rfl, h⟩
      · exact .inr ⟨.inr hj, h⟩
    · rintro (h | ⟨rfl | hj, h⟩)
      · exact .inl (.inl h)
      · exact .inl (.inr ⟨rfl, h⟩)
      · exact .inr ⟨hj, h⟩

/-- A class is marked if the nearest copy function is public or none is visited. So where the visits
come to all of its bases, the nearest copy function decides. -/
theorem clonable_by_nearest_copy (s : State) (classes : List ClassId) (i : ClassId)
    (hclass : i ∈ classes) (hsize : i < s.store.classes.size) (hunmarked : ¬ Clonable s i) :
    ∃ order, Search.BreadthFirst (s.store.copyBases i) i order ∧
      (Clonable (linkCopies classes s) i ↔
        (∀ f, order.findSome? s.store.copyFunctionOf? = some f → f.visibility = .pub) ∨
        ∀ j ∈ i :: s.store.copyVisits (s.registry.members.length + 1) i,
          s.store.copyFunctionOf? j = none) ∧
      (order ⊆ i :: s.store.copyVisits (s.registry.members.length + 1) i →
        (Clonable (linkCopies classes s) i ↔
          ∀ f, order.findSome? s.store.copyFunctionOf? = some f → f.visibility = .pub)) := by
  have horder := s.store.copyBases_breadthFirst i
  have hmarked : Clonable (linkCopies classes s) i ↔
      isClonable s.store (s.registry.members.length + 1) i = true := by
    unfold linkCopies
    rw [clonable_foldl]
    simp [hclass, hsize, hunmarked]
  rw [ClassStore.isClonable_iff horder] at hmarked
  refine ⟨_, horder, hmarked, fun hvisited => ?_⟩
  rw [hmarked]
  refine ⟨fun h => h.elim id fun hnone f hf => ?_, .inl⟩
  obtain ⟨j, hj, hcopy⟩ := List.exists_of_findSome?_eq_some hf
  rw [hnone j (hvisited hj)] at hcopy
  cases hcopy

/-- A class with two bases, of which the primary one cannot be copied and the other can. -/
def guardedLeaf : State where
  db := .initial
  store.classes := #[
    { entry := { id? := none, name := "Root", detail := .complex .object {} }
      functions := [{ Function.make "Root" .copyConstructor with visibility := .priv }] },
    { entry := { id? := none, name := "Named", detail := .complex .interface {} }
      functions := [Function.make "operator=" .assignmentOperator] },
    { entry := { id? := none, name := "Leaf", detail := .complex .object {} }
      base? := some 0
      interfaces := [1] }]
  registry.members := [0, 1, 2]

theorem clonable_by_nearest_copy_leaf :
    ∃ order f, Search.BreadthFirst (guardedLeaf.store.copyBases 2) 2 order ∧
      order.findSome? guardedLeaf.store.copyFunctionOf? = some f ∧ f.visibility ≠ .pub ∧
      ¬ Clonable (linkCopies [0, 2] guardedLeaf) 2 := by
  have hunmarked : ¬ Clonable guardedLeaf 2 := by
    unfold Clonable
    decide +kernel
  have hleft : ¬ Clonable (linkCopies [0, 2] guardedLeaf) 2 := by
    unfold Clonable
    decide +kernel
  obtain ⟨order, horder, hmarked, -⟩ :=
    clonable_by_nearest_copy guardedLeaf [0, 2] 2 (by decide) (by decide) hunmarked
  have hprivate : ¬ ∀ f, order.findSome? guardedLeaf.store.copyFunctionOf? = some f →
      f.visibility = .pub := fun hpublic => hleft (hmarked.mpr (.inl hpublic))
  push Not at hprivate
  obtain ⟨f, hf, hvisibility⟩ := hprivate
  exact ⟨order, f, horder, hf, hvisibility, hleft⟩

/-- A class that cannot be copied, at the end of a chain of interfaces. -/
def leafHeader : Header where
  global.classes := [
    { decls := { name := "Root", functions := [
        { name := "Root"
          kind := .copyConstructor
          access := .priv
          args := [{ name := "other", type := { TypeExpr.ofName "Root" with
            isConst := true
            ref := .lvalue } }] }] } },
    { decls := { name := "Upper" }, bases := [{ name := "Root" }] },
    { decls := { name := "Middle" }, bases := [{ name := "Upper" }] },
    { decls := { name := "Lower" }, bases := [{ name := "Middle" }] },
    { decls := { name := "Leaf" }, bases := [{ name := "Lower" }] }]

def leafRules : Database :=
  let (_, db) := Database.initial.add "Root" (.complex .object {})
  let (_, db) := db.add "Upper" (.complex .interface {})
  let (_, db) := db.add "Middle" (.complex .interface {})
  let (_, db) := db.add "Lower" (.complex .interface {})
  (db.add "Leaf" (.complex .object {})).2

/-- The state in which a run sorts the classes and marks them. -/
def prepared? (env : Env) (db : Database) : Option State :=
  match (do declareAll env; fillAll env; modify (complete env) : Build Unit).run { db } with
  | .ok () s => some s
  | .error .. => none

/-- All interfaces are interfaces of the leaf and are visited again from one another. Of the visits
that five classes allow for, none is left for the only class with a copy function. -/
theorem clonable_before_private_copy :
    ∃ s classes order f, prepared? ⟨{}, leafHeader, .make [] none⟩ leafRules = some s ∧
      s.store.sortClasses s.registry.members = .ok classes ∧ 4 ∈ classes ∧ ¬ Clonable s 4 ∧
      Search.BreadthFirst (s.store.copyBases 4) 4 order ∧
      order.findSome? s.store.copyFunctionOf? = some f ∧ f.visibility = .priv ∧
      Clonable (linkCopies classes s) 4 := by
  have hrun : (prepared? ⟨{}, leafHeader, .make [] none⟩ leafRules).any (fun s =>
      (s.store.sortClasses s.registry.members).toOption.any (fun classes =>
        classes.contains 4 && ((linkCopies classes s).store.get 4).has .hasCloneOperator) &&
      !(s.store.get 4).has .hasCloneOperator &&
      ((Search.breadthFirst (s.store.copyBases 4) s.store.classes.size 4).findSome?
        s.store.copyFunctionOf?).any (·.visibility = .priv)) = true := by decide +kernel
  obtain ⟨s, hs, hfacts⟩ := (Option.any_eq_true _ _).mp hrun
  simp only [Bool.and_eq_true, List.contains_iff_mem, Option.any_eq_true, decide_eq_true_eq,
    Bool.not_eq_true'] at hfacts
  obtain ⟨⟨⟨classes, hsorted, hclass, hclonable⟩, hunmarked⟩, f, hf, hprivate⟩ := hfacts
  cases hsort : s.store.sortClasses s.registry.members with
  | error e =>
    rw [hsort] at hsorted
    cases hsorted
  | ok l =>
    rw [hsort] at hsorted
    obtain rfl := Option.some.inj hsorted
    refine ⟨s, _, _, f, hs, hsort, hclass, fun hmarked => ?_, s.store.copyBases_breadthFirst 4, hf,
      hprivate, hclonable⟩
    rw [hmarked] at hunmarked
    cases hunmarked

end Assembly
end BindingModel
