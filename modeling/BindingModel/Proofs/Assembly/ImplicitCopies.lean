import BindingModel.Proofs.Api.Ancestors
import BindingModel.Proofs.Assembly.Summaries

/-! Which implicit copy constructors are private: those of classes that are made of one that
declares a private copy constructor. What the pass gives to other classes does not matter, and so
neither does the order in which it comes to them. -/
namespace BindingModel
open Api Assembly

namespace Api.ClassStore

/-- What instances of a class are copied with: its bases and its template. -/
def madeOf (s : ClassStore) (i : ClassId) : List ClassId := s.bases i ++ (s.templateBase? i).toList

/-- The first copy constructor of the class is private. -/
def DeclaresPrivateCopy (s : ClassStore) (i : ClassId) : Prop :=
  ∃ f, (s.get i).copyConstructor? = some f ∧ f.visibility = .priv

/-- The class, or something that it is made of at any distance, declares a private copy
constructor. -/
def HoldsPrivateCopy (s : ClassStore) (i : ClassId) : Prop :=
  ∃ j, Relation.ReflTransGen (fun c x => x ∈ s.madeOf c) i j ∧ s.DeclaresPrivateCopy j

variable {s : ClassStore} {i j : ClassId}

theorem isLive_of_mem_madeOf (h : j ∈ s.madeOf i) : s.isLive j = true := by
  rcases List.mem_append.mp h with h | h
  · exact isLive_of_mem_bases h
  · have hlink : s.templateBase? i = some j := by simpa using h
    exact (Option.filter_eq_some_iff.mp hlink).2

theorem copiedWith_breadthFirst (s : ClassStore) (i : ClassId) :
    Search.BreadthFirst s.madeOf i (copiedWith s i) :=
  breadthFirst_of_isLive (fun _ _ => isLive_of_mem_madeOf) i

theorem mem_copiedWith :
    j ∈ copiedWith s i ↔ Relation.ReflTransGen (fun c x => x ∈ s.madeOf c) i j := by
  rw [(copiedWith_breadthFirst s i).mem_iff, Search.exists_away_iff]

/-- A primary base is part of what a class is made of. -/
theorem reaches_of_mem_baseChain (h : j ∈ s.baseChain i) :
    Relation.ReflTransGen (fun c x => x ∈ s.madeOf c) i j := by
  refine Relation.TransGen.to_reflTransGen (Relation.TransGen.mono (fun c b hb => ?_) _ _
    (mem_baseChain.mp h))
  have hb : s.base? c = some b := hb
  simp [madeOf, bases, hb]

/-- The search looks for the nearest copy constructor from every class that it comes to. As it comes
to all of their bases too, it finds one exactly if one of the classes declares one. -/
theorem inheritsPrivateCopy_iff : inheritsPrivateCopy s i = true ↔ s.HoldsPrivateCopy i := by
  unfold inheritsPrivateCopy
  rw [List.any_eq_true]
  constructor
  · rintro ⟨j, hj, hprivate⟩
    unfold hasPrivateCopy at hprivate
    split at hprivate
    · next f hf =>
      obtain ⟨k, hk, hcopy⟩ := List.exists_of_findSome?_eq_some hf
      have hreach := mem_copiedWith.mp hj
      refine ⟨k, ?_, f, hcopy, of_decide_eq_true hprivate⟩
      rcases List.mem_cons.mp hk with rfl | hk
      · exact hreach
      · exact hreach.trans (reaches_of_mem_baseChain hk)
    · cases hprivate
  · rintro ⟨j, hreach, f, hcopy, hprivate⟩
    refine ⟨j, mem_copiedWith.mpr hreach, ?_⟩
    unfold hasPrivateCopy
    rw [List.findSome?_cons, hcopy]
    exact decide_eq_true hprivate

theorem ext_get {s t : ClassStore} (hsize : s.classes.size = t.classes.size)
    (hreleased : s.released = t.released) (hget : ∀ i, s.get i = t.get i) : s = t := by
  obtain ⟨classes, released⟩ := s
  obtain ⟨classes', released'⟩ := t
  obtain rfl : released = released' := hreleased
  congr 1
  refine Array.ext hsize fun i hi hi' => ?_
  have hsame := hget i
  unfold get at hsame
  rwa [Array.getElem?_eq_getElem hi, Array.getElem?_eq_getElem hi'] at hsame

theorem modify_congr {f g : BoundClass → BoundClass} (h : f (s.get i) = g (s.get i)) :
    s.modify i f = s.modify i g := by
  refine ext_get (by rw [size_modify, size_modify]) rfl fun j => ?_
  rw [get_modify, get_modify]
  split
  · next hj => rw [← hj.1, h]
  · rfl

theorem modify_eq_self {f : BoundClass → BoundClass} (h : f (s.get i) = s.get i) :
    s.modify i f = s := by
  refine ext_get (by rw [size_modify]) rfl fun j => ?_
  rw [get_modify]
  split
  · next hj => rw [← hj.1, h]
  · rfl

theorem modify_modify (s : ClassStore) (i : ClassId) (f g : BoundClass → BoundClass) :
    (s.modify i f).modify i g = s.modify i (g ∘ f) := by
  refine ext_get (by rw [size_modify, size_modify, size_modify]) rfl fun j => ?_
  rw [get_modify, get_modify, get_modify, size_modify]
  split <;> rfl

section
variable {f : BoundClass → BoundClass} (hbase : (f (s.get i)).base? = (s.get i).base?)
  (hinterfaces : (f (s.get i)).interfaces = (s.get i).interfaces)
  (htemplate : (f (s.get i)).templateBase? = (s.get i).templateBase?)
include hbase hinterfaces htemplate

theorem madeOf_modify : (s.modify i f).madeOf = s.madeOf := by
  have hlive : (s.modify i f).isLive = s.isLive := by
    funext j
    unfold isLive
    rw [size_modify]
    rfl
  have hlinks : ∀ j, ((s.modify i f).get j).base? = (s.get j).base? ∧
      ((s.modify i f).get j).interfaces = (s.get j).interfaces ∧
      ((s.modify i f).get j).templateBase? = (s.get j).templateBase? := by
    intro j
    rw [get_modify]
    split
    · next hj =>
      obtain rfl := hj.1
      exact ⟨hbase, hinterfaces, htemplate⟩
    · exact ⟨rfl, rfl, rfl⟩
  funext j
  obtain ⟨hbase, hinterfaces, htemplate⟩ := hlinks j
  unfold madeOf bases base? templateBase? follow? interfaces
  rw [hlive, hbase, hinterfaces, htemplate]

/-- A class that gets a private copy constructor where it had none changes nothing if it held one
already. -/
theorem holdsPrivateCopy_modify
    (hkept : (s.get i).copyConstructor? ≠ none →
      (f (s.get i)).copyConstructor? = (s.get i).copyConstructor?)
    (hnew : (s.get i).copyConstructor? = none → ∀ g, (f (s.get i)).copyConstructor? = some g →
      g.visibility = .priv → s.HoldsPrivateCopy i) :
    (s.modify i f).HoldsPrivateCopy = s.HoldsPrivateCopy := by
  have hcopies : ∀ j, ((s.modify i f).get j).copyConstructor? = (s.get j).copyConstructor? ∨
      j = i ∧ (s.get i).copyConstructor? = none ∧
        ((s.modify i f).get j).copyConstructor? = (f (s.get i)).copyConstructor? := by
    intro j
    rw [get_modify]
    split
    · next hj =>
      obtain rfl := hj.1
      by_cases hnone : (s.get i).copyConstructor? = none
      · exact .inr ⟨rfl, hnone, rfl⟩
      · exact .inl (hkept hnone)
    · exact .inl rfl
  funext k
  apply propext
  unfold HoldsPrivateCopy DeclaresPrivateCopy
  rw [madeOf_modify hbase hinterfaces htemplate]
  constructor
  · rintro ⟨j, hreach, g, hg, hprivate⟩
    rcases hcopies j with hsame | ⟨rfl, hnone, hsame⟩
    · exact ⟨j, hreach, g, hsame ▸ hg, hprivate⟩
    · obtain ⟨l, hrest, hl⟩ := hnew hnone g (hsame ▸ hg) hprivate
      exact ⟨l, hreach.trans hrest, hl⟩
  · rintro ⟨j, hreach, g, hg, hprivate⟩
    rcases hcopies j with hsame | ⟨rfl, hnone, -⟩
    · exact ⟨j, hreach, g, hsame ▸ hg, hprivate⟩
    · rw [hnone] at hg
      cases hg

end
end Api.ClassStore

namespace Assembly
variable {s : ClassStore} {i j : ClassId} {c : BoundClass} {isPrivate : Bool}

/-! ### One class -/

/-- The class gets an implicit copy constructor. -/
def takesCopy (c : BoundClass) : Bool :=
  takesImplicit c && c.entry.isKind .value && !c.has .abstract && c.copyConstructor?.isNone

/-- A class with its implicit default constructor. -/
def defaulted (i : ClassId) (c : BoundClass) : BoundClass :=
  if takesImplicit c && c.constructors.isEmpty then c.addFunction (implicitConstructor i c) else c

/-- A class with its implicit constructors. -/
def completed (i : ClassId) (isPrivate : Bool) (c : BoundClass) : BoundClass :=
  if takesCopy c then (defaulted i c).addFunction (implicitCopy i c isPrivate) else defaulted i c

theorem takesCopy_of_takesImplicit (h : takesImplicit c = true) :
    takesCopy c = (c.entry.isKind .value && !c.has .abstract && c.copyConstructor?.isNone) := by
  rw [takesCopy, h, Bool.true_and]

theorem copyConstructor?_of_takesCopy (h : takesCopy c = true) : c.copyConstructor? = none :=
  Option.isNone_iff_eq_none.mp (Bool.and_eq_true_iff.mp h).2

theorem completed_of_not_takesImplicit (h : takesImplicit c = false) :
    completed i isPrivate c = c := by
  unfold completed defaulted takesCopy
  simp [h]

/-- What a copy constructor depends on is not changed by a default constructor. -/
theorem defaulted_frame (i : ClassId) (c : BoundClass) :
    (defaulted i c).entry = c.entry ∧ (defaulted i c).has .abstract = c.has .abstract ∧
      (defaulted i c).copyConstructor? = c.copyConstructor? := by
  unfold defaulted
  split
  · refine ⟨rfl, BoundClass.has_addFunction _ _ (by decide), ?_⟩
    show (c.functions ++ [implicitConstructor i c]).find? _ = c.functions.find? _
    rw [List.find?_append, List.find?_singleton, if_neg (fun hkind => nomatch hkind),
      Option.or_none]
  · exact ⟨rfl, rfl, rfl⟩

theorem completed_frame (i : ClassId) (isPrivate : Bool) (c : BoundClass) :
    (completed i isPrivate c).entry = c.entry ∧
      (completed i isPrivate c).has .abstract = c.has .abstract := by
  obtain ⟨hentry, habstract, -⟩ := defaulted_frame i c
  unfold completed
  split
  · exact ⟨hentry, (BoundClass.has_addFunction _ _ (by decide)).trans habstract⟩
  · exact ⟨hentry, habstract⟩

theorem completed_links (i : ClassId) (isPrivate : Bool) (c : BoundClass) :
    (completed i isPrivate c).base? = c.base? ∧
      (completed i isPrivate c).interfaces = c.interfaces ∧
      (completed i isPrivate c).templateBase? = c.templateBase? := by
  unfold completed defaulted
  split <;> split <;> exact ⟨rfl, rfl, rfl⟩

theorem copyConstructor?_completed (i : ClassId) (isPrivate : Bool) (c : BoundClass) :
    (completed i isPrivate c).copyConstructor? =
      if takesCopy c then some (implicitCopy i c isPrivate) else c.copyConstructor? := by
  obtain ⟨-, -, hcopy⟩ := defaulted_frame i c
  unfold completed
  split
  · next h =>
    show ((defaulted i c).functions ++ [implicitCopy i c isPrivate]).find? _ = _
    rw [List.find?_append]
    exact Option.or_eq_some_iff.mpr (.inr ⟨hcopy.trans (copyConstructor?_of_takesCopy h), rfl⟩)
  · exact hcopy

theorem exists_constructor_completed (h : takesImplicit c = true) :
    (completed i isPrivate c).constructors.isEmpty = false := by
  have hdefault : ∃ f ∈ (defaulted i c).functions, f.isConstructor = true := by
    unfold defaulted
    by_cases hnone : c.constructors.isEmpty = true
    · rw [if_pos (by rw [h, hnone]; rfl)]
      exact ⟨_, List.mem_append_right _ (List.mem_singleton_self _), rfl⟩
    · rw [if_neg (by simp [hnone])]
      obtain ⟨f, hf⟩ := List.isEmpty_eq_false_iff_exists_mem.mp (eq_false_of_ne_true hnone)
      exact ⟨f, List.mem_filter.mp hf⟩
  obtain ⟨f, hf, hkind⟩ := hdefault
  refine List.isEmpty_eq_false_iff_exists_mem.mpr ⟨f, List.mem_filter.mpr ⟨?_, hkind⟩⟩
  unfold completed
  split
  · exact List.mem_append_left _ hf
  · exact hf

theorem takesCopy_completed : takesCopy (completed i isPrivate c) = false := by
  by_cases htakes : takesImplicit c = true
  · obtain ⟨hentry, habstract⟩ := completed_frame i isPrivate c
    unfold takesCopy
    rw [hentry, habstract, copyConstructor?_completed]
    split
    · simp
    · next hcopy =>
      rw [takesCopy_of_takesImplicit htakes] at hcopy
      rw [Bool.and_assoc, Bool.and_assoc, ← Bool.and_assoc (c.entry.isKind _),
        eq_false_of_ne_true hcopy, Bool.and_false]
  · have hnot := eq_false_of_ne_true htakes
    rw [completed_of_not_takesImplicit hnot, takesCopy, hnot, Bool.false_and, Bool.false_and,
      Bool.false_and]

/-- A class that has its implicit constructors takes no others. -/
theorem completed_completed (i : ClassId) (p q : Bool) (c : BoundClass) :
    completed i q (completed i p c) = completed i p c := by
  by_cases htakes : takesImplicit c = true
  · rw [completed, takesCopy_completed, if_neg Bool.false_ne_true, defaulted,
      exists_constructor_completed htakes, Bool.and_false, if_neg Bool.false_ne_true]
  · have hnot := eq_false_of_ne_true htakes
    rw [completed_of_not_takesImplicit hnot, completed_of_not_takesImplicit hnot]

/-! ### The pass -/

theorem inheritsPrivateCopy_congr {t : ClassStore}
    (h : t.HoldsPrivateCopy = s.HoldsPrivateCopy) (i : ClassId) :
    inheritsPrivateCopy t i = inheritsPrivateCopy s i := by
  rw [Bool.eq_iff_iff, ClassStore.inheritsPrivateCopy_iff, ClassStore.inheritsPrivateCopy_iff, h]

theorem holdsPrivateCopy_defaulted (s : ClassStore) (i : ClassId) :
    (s.modify i (defaulted i)).HoldsPrivateCopy = s.HoldsPrivateCopy := by
  obtain ⟨-, -, hcopy⟩ := defaulted_frame i (s.get i)
  have hlinks : (defaulted i (s.get i)).base? = (s.get i).base? ∧
      (defaulted i (s.get i)).interfaces = (s.get i).interfaces ∧
      (defaulted i (s.get i)).templateBase? = (s.get i).templateBase? := by
    unfold defaulted
    split <;> exact ⟨rfl, rfl, rfl⟩
  refine ClassStore.holdsPrivateCopy_modify hlinks.1 hlinks.2.1 hlinks.2.2 (fun _ => hcopy)
    fun hnone g hg => ?_
  rw [hcopy, hnone] at hg
  cases hg

theorem addDefault_eq (htakes : takesImplicit (s.get i) = true) :
    (if (s.get i).constructors.isEmpty then
      s.modify i fun c => c.addFunction (implicitConstructor i c) else s) =
        s.modify i (defaulted i) := by
  split
  · next h => exact ClassStore.modify_congr (by rw [defaulted, htakes, h]; rfl)
  · next h => exact (ClassStore.modify_eq_self (by simp [defaulted, h])).symm

theorem implicitCopy_defaulted : implicitCopy i (defaulted i c) = implicitCopy i c := by
  unfold implicitCopy BoundClass.name
  rw [(defaulted_frame i c).1]

/-- The default constructor that a class gets first makes no difference to its copies. -/
theorem addImplicit_eq (s : ClassStore) (i : ClassId) :
    addImplicit s i = s.modify i (completed i (inheritsPrivateCopy s i)) := by
  unfold addImplicit
  by_cases htakes : takesImplicit (s.get i) = true
  · have hframe : ((s.modify i (defaulted i)).get i).entry = (s.get i).entry ∧
        ((s.modify i (defaulted i)).get i).has .abstract = (s.get i).has .abstract ∧
        ((s.modify i (defaulted i)).get i).copyConstructor? = (s.get i).copyConstructor? := by
      rw [ClassStore.get_modify]
      split
      · exact defaulted_frame i (s.get i)
      · exact ⟨rfl, rfl, rfl⟩
    obtain ⟨hentry, habstract, hcopy⟩ := hframe
    rw [if_pos htakes, addDefault_eq htakes]
    simp only [hentry, habstract, hcopy]
    rw [← takesCopy_of_takesImplicit htakes]
    split
    · next hcopies =>
      rw [ClassStore.modify_modify]
      refine ClassStore.modify_congr ?_
      rw [completed, if_pos hcopies, Function.comp_apply, implicitCopy_defaulted,
        inheritsPrivateCopy_congr (holdsPrivateCopy_defaulted s i)]
    · next hcopies =>
      exact ClassStore.modify_congr (by rw [completed, if_neg hcopies])
  · rw [if_neg htakes]
    exact (ClassStore.modify_eq_self
      (completed_of_not_takesImplicit (eq_false_of_ne_true htakes))).symm

/-- An implicit copy constructor is private only where the class held a private one already. -/
theorem holdsPrivateCopy_addImplicit (s : ClassStore) (i : ClassId) :
    (addImplicit s i).HoldsPrivateCopy = s.HoldsPrivateCopy := by
  obtain ⟨hbase, hinterfaces, htemplate⟩ :=
    completed_links i (inheritsPrivateCopy s i) (s.get i)
  have hcopy := copyConstructor?_completed i (inheritsPrivateCopy s i) (s.get i)
  rw [addImplicit_eq]
  refine ClassStore.holdsPrivateCopy_modify hbase hinterfaces htemplate (fun hsome => ?_)
    fun hnone g hg hprivate => ?_
  · rw [hcopy, if_neg fun htakes => hsome (copyConstructor?_of_takesCopy htakes)]
  · rw [hcopy] at hg
    split at hg
    · obtain rfl := Option.some.inj hg
      rw [← ClassStore.inheritsPrivateCopy_iff]
      by_contra hnot
      rw [Bool.not_eq_true] at hnot
      rw [hnot] at hprivate
      cases hprivate
    · rw [hnone] at hg
      cases hg

/-- Every class is completed as it would be if the pass came to it first. -/
theorem get_foldl_addImplicit (l : List ClassId) (s : ClassStore) (j : ClassId) :
    (l.foldl addImplicit s).get j = if j ∈ l ∧ j < s.classes.size then
      completed j (inheritsPrivateCopy s j) (s.get j) else s.get j := by
  induction l generalizing s with
  | nil => simp
  | cons i l ih =>
    rw [List.foldl_cons, ih, inheritsPrivateCopy_congr (holdsPrivateCopy_addImplicit s i),
      addImplicit_eq, ClassStore.size_modify, ClassStore.get_modify]
    by_cases hij : i = j
    · subst hij
      by_cases hsize : i < s.classes.size
      · simp [hsize, completed_completed]
      · simp [hsize]
    · simp [hij, Ne.symm hij]

theorem size_foldl_addImplicit (l : List ClassId) (s : ClassStore) :
    (l.foldl addImplicit s).classes.size = s.classes.size := by
  induction l generalizing s with
  | nil => rfl
  | cons i l ih => rw [List.foldl_cons, ih, addImplicit_eq, ClassStore.size_modify]

theorem released_foldl_addImplicit (l : List ClassId) (s : ClassStore) :
    (l.foldl addImplicit s).released = s.released := by
  induction l generalizing s with
  | nil => rfl
  | cons i l ih =>
    rw [List.foldl_cons, ih, addImplicit_eq]
    rfl

/-- Implicit copy constructors are private for the classes that held a private one before, and what
classes get does not depend on the order of registration. Both searches end on any links: one comes
once to each class that a class is made of, the other to all primary bases. -/
theorem implicit_copies (s : State) :
    (∀ i f, (s.store.get i).copyConstructor? = none →
      ((addImplicitAll s).store.get i).copyConstructor? = some f →
      (f.visibility = .priv ↔ s.store.HoldsPrivateCopy i) ∧
        (f.visibility = .pub ↔ ¬ s.store.HoldsPrivateCopy i)) ∧
    (∀ t : State, t.store = s.store → (∀ i, i ∈ t.registry.members ↔ i ∈ s.registry.members) →
      (addImplicitAll t).store = (addImplicitAll s).store) ∧
    (∀ i, Search.BreadthFirst s.store.madeOf i (copiedWith s.store i)) ∧
    ∀ i j, j ∈ s.store.baseChain i ↔ Relation.TransGen s.store.HasBase i j := by
  refine ⟨fun i f hnone hf => ?_, fun t hstore hmembers => ?_, s.store.copiedWith_breadthFirst,
    fun _ _ => ClassStore.mem_baseChain⟩
  · have hget : ((addImplicitAll s).store.get i) = _ :=
      get_foldl_addImplicit s.registry.members s.store i
    rw [hget] at hf
    split at hf
    · rw [copyConstructor?_completed] at hf
      split at hf
      · obtain rfl := Option.some.inj hf
        rw [← ClassStore.inheritsPrivateCopy_iff]
        show (ite _ _ _ = _ ↔ _) ∧ (ite _ _ _ = _ ↔ _)
        cases inheritsPrivateCopy s.store i <;> simp
      · rw [hnone] at hf
        cases hf
    · rw [hnone] at hf
      cases hf
  · refine ClassStore.ext_get ?_ ?_ fun j => ?_
    · unfold addImplicitAll
      rw [size_foldl_addImplicit, size_foldl_addImplicit, hstore]
    · unfold addImplicitAll
      rw [released_foldl_addImplicit, released_foldl_addImplicit, hstore]
    · unfold addImplicitAll
      rw [get_foldl_addImplicit, get_foldl_addImplicit, hstore]
      simp only [hmembers]

/-- A class that cannot be copied, one derived from it, one that has that as an interface and
itself as its template, and one that is its own base. -/
def privateRoot : State where
  db := .initial
  store.classes := #[
    { entry := { id? := none, name := "Root", detail := .complex .value {} }
      functions := [{ Function.make "Root" .copyConstructor with visibility := .priv }] },
    { entry := { id? := none, name := "Middle", detail := .complex .value {} }, base? := some 0 },
    { entry := { id? := none, name := "Leaf", detail := .complex .value {} }
      interfaces := [1]
      templateBase? := some 2 },
    { entry := { id? := none, name := "Loop", detail := .complex .value {} }, base? := some 3 }]
  registry.members := [1, 2, 3]

theorem implicit_copies_private_root :
    privateRoot.store.HoldsPrivateCopy 2 ∧ ¬ privateRoot.store.HoldsPrivateCopy 3 ∧
      (∃ f, ((addImplicitAll privateRoot).store.get 2).copyConstructor? = some f ∧
        f.visibility = .priv) ∧
      (∃ f, ((addImplicitAll privateRoot).store.get 3).copyConstructor? = some f ∧
        f.visibility = .pub) ∧
      (addImplicitAll { privateRoot with registry.members := [3, 2, 1] }).store =
        (addImplicitAll privateRoot).store := by
  obtain ⟨hvisibility, horder, -⟩ := implicit_copies privateRoot
  have hholds : privateRoot.store.HoldsPrivateCopy 2 :=
    ClassStore.inheritsPrivateCopy_iff.mp (by decide +kernel)
  have hfree : ¬ privateRoot.store.HoldsPrivateCopy 3 := by
    rw [← ClassStore.inheritsPrivateCopy_iff]
    decide +kernel
  have hnone : ∀ i ∈ [2, 3], (privateRoot.store.get i).copyConstructor? = none := by
    simp only [← Option.isNone_iff_eq_none]
    decide +kernel
  have hsome : ∀ i ∈ [2, 3],
      ∃ f, ((addImplicitAll privateRoot).store.get i).copyConstructor? = some f := by
    simp only [← Option.isSome_iff_exists]
    decide +kernel
  obtain ⟨f, hf⟩ := hsome 2 (by simp)
  obtain ⟨g, hg⟩ := hsome 3 (by simp)
  refine ⟨hholds, hfree, ⟨f, hf, ?_⟩, ⟨g, hg, ?_⟩, horder _ rfl fun i => ?_⟩
  · exact (hvisibility 2 f (hnone 2 (by simp)) hf).1.mpr hholds
  · exact (hvisibility 3 g (hnone 3 (by simp)) hg).2.mpr hfree
  · show i ∈ [1, 2, 3].reverse ↔ i ∈ [1, 2, 3]
    exact List.mem_reverse

end Assembly
end BindingModel
