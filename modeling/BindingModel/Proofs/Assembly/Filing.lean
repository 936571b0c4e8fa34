import BindingModel.Proofs.Assembly.FinishedOrder
import BindingModel.Proofs.Assembly.Quiet
import Mathlib.Data.List.Perm.Basic

/-! Classes are filed once each, by the kind of their entry, and nothing takes them out again. -/
namespace BindingModel
open Api Header

namespace Api.BoundClass
variable {c d : BoundClass}

theorem head_eq_of_ties (h : c.ties = d.ties) : c.head = d.head := congrArg ClassTies.head h

theorem base?_eq_of_ties (h : c.ties = d.ties) : c.base? = d.base? := congrArg ClassTies.base? h

theorem templateBase?_eq_of_ties (h : c.ties = d.ties) : c.templateBase? = d.templateBase? :=
  congrArg ClassTies.templateBase? h

theorem interfaces_eq_of_ties (h : c.ties = d.ties) : c.interfaces = d.interfaces :=
  congrArg ClassTies.interfaces h

theorem inner_eq_of_ties (h : c.ties = d.ties) : c.inner = d.inner := congrArg ClassTies.inner h

/-- No base of the class is resolved. -/
structure Unlinked (c : BoundClass) : Prop where
  base? : c.base? = none
  templateBase? : c.templateBase? = none
  interfaces : c.interfaces = []

end Api.BoundClass

namespace Assembly

namespace State

/-- Every class that is filed. -/
def filed (s : State) : List ClassId := s.registry.members ++ s.templates ++ s.smartPointers

/-- The list in which classes of a kind are filed. -/
def shelf (s : State) : EntryKind → List ClassId
  | .container => s.templates
  | .smartPointer => s.smartPointers
  | _ => s.registry.members

variable {s t : State} {c : ClassId}

theorem filed_eq_of_filing (h : t.filing = s.filing) : t.filed = s.filed :=
  congrArg (fun f : Filing => f.registry.members ++ f.templates ++ f.smartPointers) h

theorem shelf_eq_of_filing (h : t.filing = s.filing) (k : EntryKind) : t.shelf k = s.shelf k := by
  have htemplates : t.templates = s.templates := congrArg Filing.templates h
  have hpointers : t.smartPointers = s.smartPointers := congrArg Filing.smartPointers h
  have hregistry : t.registry = s.registry := congrArg Filing.registry h
  unfold shelf
  rw [htemplates, hpointers, hregistry]

theorem store_addClass (s : State) (c : ClassId) : (s.addClass c).store = s.store := by
  unfold addClass
  split
  · split <;> rfl
  · split <;> rfl
  · rfl

theorem settled_addClass (s : State) (c : ClassId) : (s.addClass c).settled = s.settled := by
  unfold addClass
  split
  · split <;> rfl
  · split <;> rfl
  · rfl

theorem filed_addClass (h : c ∉ s.filed) : (s.addClass c).filed.Perm (c :: s.filed) := by
  have hfiled : c ∉ s.registry.members ∧ c ∉ s.templates ∧ c ∉ s.smartPointers := by
    simpa [filed, and_assoc] using h
  obtain ⟨hmembers, htemplates, hpointers⟩ := hfiled
  unfold addClass
  split
  · rw [if_neg htemplates]
    show (s.registry.members ++ (s.templates ++ [c]) ++ s.smartPointers).Perm _
    have hmiddle : (s.registry.members ++ s.templates ++ c :: s.smartPointers).Perm
        (c :: s.filed) := List.perm_middle
    simpa [filed] using hmiddle
  · rw [if_neg hpointers]
    show (s.registry.members ++ s.templates ++ (s.smartPointers ++ [c])).Perm _
    have hlast : (s.filed ++ [c]).Perm (c :: s.filed) := List.perm_append_singleton c s.filed
    simpa [filed] using hlast
  · unfold Registry.insert
    rw [if_neg hmembers]
    show (s.registry.members ++ [c] ++ s.templates ++ s.smartPointers).Perm _
    simp [filed]

theorem mem_shelf_addClass (s : State) (c : ClassId) :
    c ∈ (s.addClass c).shelf (s.store.get c).entry.kind := by
  unfold addClass
  split
  · next hkind =>
    rw [hkind]
    split
    · assumption
    · exact List.mem_append_right _ List.mem_cons_self
  · next hkind =>
    rw [hkind]
    split
    · assumption
    · exact List.mem_append_right _ List.mem_cons_self
  · next hcontainer hpointer =>
    have hshelf : ∀ (t : State), t.shelf (s.store.get c).entry.kind = t.registry.members := by
      intro t
      unfold shelf
      split
      · next hkind => exact absurd hkind hcontainer
      · next hkind => exact absurd hkind hpointer
      · rfl
    rw [hshelf]
    show c ∈ (s.registry.insert c).members
    unfold Registry.insert
    split
    · assumption
    · exact List.mem_append_right _ List.mem_cons_self

/-- Filing a class leaves the others where they are. -/
theorem mem_shelf_addClass_of_mem {k : EntryKind} {d : ClassId} (h : d ∈ s.shelf k) :
    d ∈ (s.addClass c).shelf k := by
  have hinsert : d ∈ s.registry.members → d ∈ (s.registry.insert c).members := by
    intro hd
    unfold Registry.insert
    split
    · exact hd
    · exact List.mem_append_left _ hd
  unfold addClass
  split
  · split
    · exact h
    · cases k <;> first | exact h | exact List.mem_append_left _ h
  · split
    · exact h
    · cases k <;> first | exact h | exact List.mem_append_left _ h
  · cases k <;> first | exact h | exact hinsert h

end State

/-- The first pass: every class but the pending ones is filed, once and by its kind; inner classes
are filed, and no base is resolved. -/
structure Pending (P : List ClassId) (s : State) : Prop where
  perm : (P ++ s.filed).Perm (List.range s.store.classes.size)
  shelf : ∀ c ∈ s.filed, c ∈ s.shelf (s.store.get c).entry.kind
  inner_nodup : ∀ i, (s.store.get i).inner.Nodup
  inner_filed : ∀ i, ∀ c ∈ (s.store.get i).inner, c ∈ s.filed
  unlinked : ∀ i, (s.store.get i).Unlinked
  settled : s.settled = []
  released : s.store.released = []

/-- The class may have learned which class is around it, and have taken in `c`. -/
structure Fitted (c : ClassId) (x y : BoundClass) : Prop where
  head : y.head = x.head
  unlinked : x.Unlinked → y.Unlinked
  inner : y.inner = x.inner ∨ y.inner = x.inner ++ [c]

namespace Fitted
variable {c : ClassId} {x : BoundClass}

theorem refl : Fitted c x x := ⟨rfl, id, .inl rfl⟩

theorem enclosed (parent : ClassId) : Fitted c x (x.setEnclosing parent) :=
  ⟨rfl, fun h => ⟨h.base?, h.templateBase?, h.interfaces⟩, .inl rfl⟩

theorem modify {f : BoundClass → BoundClass} (hf : ∀ x, Fitted c x (f x)) (s : ClassStore)
    (i j : ClassId) : Fitted c (s.get j) ((s.modify i f).get j) := by
  rw [ClassStore.get_modify]
  split
  · exact hf _
  · exact refl

end Fitted

namespace Pending
variable {P : List ClassId} {s t : State} {c : ClassId}

theorem nodup (h : Pending P s) : (P ++ s.filed).Nodup :=
  h.perm.nodup_iff.mpr List.nodup_range

/-- At first there is nothing to file. -/
theorem initial (db : Database) : Pending [] { db } := by
  have hget : ∀ i, (({ db } : State).store.get i) = default := fun i =>
    ClassStore.get_of_size_le _ (Nat.zero_le i)
  refine ⟨.refl _, fun c hc => absurd hc List.not_mem_nil, fun i => ?_, fun i c hc => ?_,
    fun i => ?_, rfl, rfl⟩
  · rw [hget]
    exact List.nodup_nil
  · rw [hget] at hc
    exact absurd hc List.not_mem_nil
  · rw [hget]
    exact ⟨rfl, rfl, rfl⟩

theorem members_nodup (h : Pending P s) : s.registry.members.Nodup := by
  have hfiled : s.filed.Nodup := (List.nodup_append.mp h.nodup).2.1
  unfold State.filed at hfiled
  exact (List.nodup_append.mp (List.nodup_append.mp hfiled).1).1

theorem lt_size (h : Pending P s) (hc : c ∈ P ++ s.filed) : c < s.store.classes.size :=
  List.mem_range.mp (h.perm.mem_iff.mp hc)

theorem not_mem_filed (h : Pending (c :: P) s) : c ∉ s.filed := by
  have hnodup := h.nodup
  rw [List.cons_append, List.nodup_cons] at hnodup
  exact fun hc => hnodup.1 (List.mem_append_right P hc)

theorem quiet (h : Pending P s) (hq : Quiet s t) : Pending P t := by
  have hfiled := State.filed_eq_of_filing hq.filing
  have hinner : ∀ i, (t.store.get i).inner = (s.store.get i).inner :=
    fun i => BoundClass.inner_eq_of_ties (hq.ties i)
  refine ⟨?_, fun c hc => ?_, fun i => ?_, fun i c hc => ?_, fun i => ?_, ?_, ?_⟩
  · rw [hfiled, hq.size]
    exact h.perm
  · have hentry := BoundClass.entry_eq_of_head (BoundClass.head_eq_of_ties (hq.ties c))
    rw [hentry, State.shelf_eq_of_filing hq.filing]
    exact h.shelf c (hfiled ▸ hc)
  · rw [hinner i]
    exact h.inner_nodup i
  · rw [hinner i] at hc
    rw [hfiled]
    exact h.inner_filed i c hc
  · obtain ⟨hbase, htemplate, hinterfaces⟩ := h.unlinked i
    exact ⟨(BoundClass.base?_eq_of_ties (hq.ties i)).trans hbase,
      (BoundClass.templateBase?_eq_of_ties (hq.ties i)).trans htemplate,
      (BoundClass.interfaces_eq_of_ties (hq.ties i)).trans hinterfaces⟩
  · exact (congrArg Filing.settled hq.filing).trans h.settled
  · exact hq.released.trans h.released

/-- A new class is pending. -/
theorem createClass (h : Pending P s) {d : BoundClass} (hlinks : d.Unlinked)
    (hinner : d.inner = []) : Pending (s.store.classes.size :: P) (s.createClass d).2 := by
  have hget : ∀ i, (s.createClass d).2.store.get i = s.store.get i ∨
      (s.createClass d).2.store.get i = d := s.store.get_create d
  refine ⟨?_, fun c hc => ?_, fun i => ?_, fun i c hc => ?_, fun i => ?_, h.settled, h.released⟩
  · show (s.store.classes.size :: (P ++ s.filed)).Perm (List.range (s.store.create d).2.classes.size)
    rw [ClassStore.size_create, List.range_succ]
    exact (h.perm.cons _).trans (List.perm_append_singleton _ _).symm
  · have hlt := h.lt_size (List.mem_append_right P hc)
    show c ∈ s.shelf ((s.store.create d).2.get c).entry.kind
    rw [ClassStore.get_create_of_lt s.store d hlt]
    exact h.shelf c hc
  · rcases hget i with heq | heq
    · rw [heq]
      exact h.inner_nodup i
    · rw [heq, hinner]
      exact List.nodup_nil
  · rcases hget i with heq | heq
    · rw [heq] at hc
      exact h.inner_filed i c hc
    · rw [heq, hinner] at hc
      exact absurd hc List.not_mem_nil
  · rcases hget i with heq | heq
    · rw [heq]
      exact h.unlinked i
    · rw [heq]
      exact hlinks

/-- Filing a pending class, which a class may have taken in before. -/
theorem addClass (h : Pending (c :: P) s) (hfiling : t.filing = s.filing)
    (hreleased : t.store.released = s.store.released)
    (hsize : t.store.classes.size = s.store.classes.size)
    (hfit : ∀ i, Fitted c (s.store.get i) (t.store.get i)) : Pending P (t.addClass c) := by
  have hfiledt := State.filed_eq_of_filing hfiling
  have hnew : c ∉ t.filed := hfiledt ▸ h.not_mem_filed
  have hfiled := State.filed_addClass hnew
  have hkept : ∀ d, d ∈ s.filed → d ∈ (t.addClass c).filed := fun d hd =>
    hfiled.mem_iff.mpr (List.mem_cons_of_mem c (hfiledt ▸ hd))
  refine ⟨?_, fun d hd => ?_, fun i => ?_, fun i d hd => ?_, fun i => ?_, ?_, ?_⟩
  · have hmove : (P ++ (t.addClass c).filed).Perm (c :: P ++ s.filed) := by
      rw [← hfiledt]
      exact (hfiled.append_left P).trans List.perm_middle
    rw [State.store_addClass, hsize]
    exact hmove.trans h.perm
  · rw [State.store_addClass]
    rcases List.mem_cons.mp (hfiled.mem_iff.mp hd) with rfl | hd
    · exact State.mem_shelf_addClass t d
    · refine State.mem_shelf_addClass_of_mem ?_
      rw [BoundClass.entry_eq_of_head (hfit d).head, State.shelf_eq_of_filing hfiling]
      exact h.shelf d (hfiledt ▸ hd)
  · rw [State.store_addClass]
    rcases (hfit i).inner with heq | heq
    · rw [heq]
      exact h.inner_nodup i
    · have hout : c ∉ (s.store.get i).inner := fun hc => h.not_mem_filed (h.inner_filed i c hc)
      rw [heq, List.nodup_append]
      refine ⟨h.inner_nodup i, List.nodup_singleton c, fun d hd e he => ?_⟩
      rw [List.mem_singleton.mp he]
      exact fun hdc => hout (hdc ▸ hd)
  · rw [State.store_addClass] at hd
    rcases (hfit i).inner with heq | heq
    · rw [heq] at hd
      exact hkept d (h.inner_filed i d hd)
    · rw [heq, List.mem_append, List.mem_singleton] at hd
      rcases hd with hd | rfl
      · exact hkept d (h.inner_filed i d hd)
      · exact hfiled.mem_iff.mpr List.mem_cons_self
  · rw [State.store_addClass]
    exact (hfit i).unlinked (h.unlinked i)
  · rw [State.settled_addClass]
    exact (congrArg Filing.settled hfiling).trans h.settled
  · rw [State.store_addClass]
    exact hreleased.trans h.released

end Pending

/-! ### Ways to file a class -/

/-- The way to file a class puts it where it belongs and changes nothing that classes are created
with. -/
structure Files (file : ClassId → State → State) : Prop where
  size : ∀ c s, (file c s).store.classes.size = s.store.classes.size
  head : ∀ c s i, ((file c s).store.get i).head = (s.store.get i).head
  pending : ∀ {P c s}, Pending (c :: P) s → Pending P (file c s)

namespace Files

/-- Any preparation that only fits the class in may come before. -/
theorem of_fitted {prepare : ClassId → State → State}
    (hfiling : ∀ c s, (prepare c s).filing = s.filing)
    (hreleased : ∀ c s, (prepare c s).store.released = s.store.released)
    (hsize : ∀ c s, (prepare c s).store.classes.size = s.store.classes.size)
    (hfit : ∀ c s i, Fitted c (s.store.get i) ((prepare c s).store.get i)) :
    Files fun c s => (prepare c s).addClass c := by
  refine ⟨fun c s => ?_, fun c s i => ?_, fun {P c s} h => ?_⟩
  · rw [State.store_addClass]
    exact hsize c s
  · rw [State.store_addClass]
    exact (hfit c s i).head
  · exact h.addClass (hfiling c s) (hreleased c s) (hsize c s) (hfit c s)

theorem addClass : Files fun c s => s.addClass c :=
  of_fitted (fun _ _ => rfl) (fun _ _ => rfl) (fun _ _ => rfl) fun _ _ _ => .refl

/-- A typedef learns which class it is declared in. -/
theorem enclosed (parent : ClassId) :
    Files fun c s => (s.modifyClass c (·.setEnclosing parent)).addClass c :=
  of_fitted (fun _ _ => rfl) (fun _ _ => rfl) (fun c s => s.store.size_modify c _)
    fun c s i => .modify (fun _ => .enclosed parent) s.store c i

theorem adopt (parent : ClassId) : Files (adopt parent) := by
  refine of_fitted (fun _ _ => rfl) (fun _ _ => rfl) (fun c s => ?_) fun c s i => ?_
  · exact (ClassStore.size_modify _ _ _).trans (s.store.size_modify c _)
  · have henclosed : Fitted c (s.store.get i) _ :=
      .modify (fun _ => .enclosed parent) s.store c i
    show Fitted c (s.store.get i) (((s.store.modify c _).modify parent _).get i)
    rw [ClassStore.get_modify]
    split
    · refine ⟨henclosed.head, fun h => ?_, .inr ?_⟩
      · obtain ⟨hbase, htemplate, hinterfaces⟩ := henclosed.unlinked h
        exact ⟨hbase, htemplate, hinterfaces⟩
      · show ((s.store.modify c _).get i).inner ++ [c] = _
        rw [ClassStore.get_modify]
        split <;> rfl
    · exact henclosed

end Files

end Assembly
end BindingModel
