import BindingModel.Proofs.Assembly.Filing

/-! What the first pass comes to, and the classes that it makes of that: one for each declaration
and typedef that it accepts. -/
namespace BindingModel
open Api Header

namespace Assembly

/-- What the first pass may make a class of, with the place where it stands. -/
inductive Origin
  | ofClass (p : Place) (d : ClassDecl)
  | ofNamespace (p : Place) (d : NamespaceDecl)
  | ofTypedef (p : Place) (d : TypedefDecl)
  | ofRule (e : Entry)

/-- The first pass comes to something in some state. -/
structure Visit where
  origin : Origin
  state : State

/-- The class for a typedef of the rules, unless there is one for its target. -/
def declareRuleTypedef (env : Env) (e : Entry) : Build (Option ClassId) := do
  let s ← get
  match e.typedefTarget?, e.typedefSource? with
  | some target, some source =>
    if (s.classOf? target).isSome then pure none
    else
      let (c, s) := s.createClass (.typedef target source)
      set s
      fillAdded env {} c
      pure (some c)
  | _, _ => pure none

/-- File the class that a declaration yields, if it yields one. -/
def fileWith (file : ClassId → State → State) (declare : Build (Option ClassId)) : Build Unit := do
  match ← declare with
  | some c => modify (file c)
  | none => pure ()

namespace Origin

/-- The entry for which a class is created, if the origin is accepted. -/
def accepted? (s : State) : Origin → Option Entry
  | .ofClass p d => (classEntry s.db (p.qualify s.store (Text.withoutArguments d.name))).toOption
  | .ofNamespace p d =>
    let name := p.qualify s.store d.name
    if (s.db.rejection? .excludeClass name "").isSome then none else s.db.findNamespace? name
  | .ofTypedef p d =>
    let name := p.qualify s.store (Text.withoutArguments d.name)
    if (s.db.findPrimitive? name).isSome then none else s.db.findComplex? name
  | .ofRule e =>
    if e.typedefSource?.isSome then e.typedefTarget?.filter fun t => (s.classOf? t).isNone
    else none

def declare (env : Env) : Origin → Build (Option ClassId)
  | .ofClass p d => declareClass env p d
  | .ofNamespace p d => declareNamespace env p d
  | .ofTypedef p d => declareTypedef env p d
  | .ofRule e => declareRuleTypedef env e

end Origin

namespace Visit

/-- The entry for which the visit is accepted, if it is. -/
def accepted? (v : Visit) : Option Entry := v.origin.accepted? v.state

/-- The class that the visit yields. -/
def class? (env : Env) (v : Visit) : Option ClassId :=
  match v.origin.declare env v.state with
  | .ok c? _ => c?
  | .error _ _ => none

end Visit

/-! ### The visits of the first pass -/

/-- The class of an accepted declaration, before anything inside it is declared. -/
def newClass (entry : Entry) (d : ClassDecl) : BoundClass where
  entry := entry
  attrs := (FlagSet.ofList [.pub]).insertIf d.isFinal .finalCpp
    |>.insertIf (entry.rules?.any (·.isStream)) .stream
  baseNames := (d.bases.filter (·.access == .pub)).map (·.name)
  templateParams := d.templateParams.mapIdx fun i n => .placeholder n i

/-- The state in which what is inside a new class is declared. -/
def State.opened (s : State) (env : Env) (new : BoundClass) (enums : List EnumDecl) : State :=
  addEnums env s.store.classes.size enums (s.createClass new).2

/-- The visits of a list, one after another; none of them has any within it. -/
def visitsEach {α : Type} (env : Env) (origin : α → Origin) (file : ClassId → State → State) :
    List α → State → List Visit
  | [], _ => []
  | a :: l, s =>
    ⟨origin a, s⟩ ::
      visitsEach env origin file l ((fileWith file ((origin a).declare env)).after s)

mutual

def visitsClass (env : Env) (p : Place) : ClassDecl → State → List Visit
  | ⟨decls, classes, bases, templateParams, isFinal, properties⟩, s =>
    let d : ClassDecl := ⟨decls, classes, bases, templateParams, isFinal, properties⟩
    let v : Visit := ⟨.ofClass p d, s⟩
    match v.accepted? with
    | none => [v]
    | some entry =>
      let c := s.store.classes.size
      let inside := p.enter c (Text.withoutArguments decls.name)
      let s := s.opened env (newClass entry d) decls.enums
      v :: visitsClasses env inside (adopt c) classes s ++
        visitsEach env (.ofTypedef inside) (fun t s => (s.modifyClass t (·.setEnclosing c)).addClass t)
          decls.typedefs ((declareInner env inside c classes).after s)

def visitsClasses (env : Env) (p : Place) (file : ClassId → State → State) :
    List ClassDecl → State → List Visit
  | [], _ => []
  | d :: ds, s =>
    visitsClass env p d s ++
      visitsClasses env p file ds ((fileWith file (declareClass env p d)).after s)

end

theorem visitsClass_rejected {env : Env} {p : Place} {d : ClassDecl} {s : State}
    (h : (⟨.ofClass p d, s⟩ : Visit).accepted? = none) :
    visitsClass env p d s = [⟨.ofClass p d, s⟩] := by
  cases d
  unfold visitsClass
  dsimp only
  rw [h]

theorem visitsClass_accepted {env : Env} {p : Place} {d : ClassDecl} {s : State} {entry : Entry}
    (h : (⟨.ofClass p d, s⟩ : Visit).accepted? = some entry) :
    visitsClass env p d s =
      let c := s.store.classes.size
      let inside := p.enter c (Text.withoutArguments d.name)
      let t := s.opened env (newClass entry d) d.decls.enums
      ⟨.ofClass p d, s⟩ :: (visitsClasses env inside (adopt c) d.classes t ++
        visitsEach env (.ofTypedef inside)
          (fun u s => (s.modifyClass u (·.setEnclosing c)).addClass u) d.decls.typedefs
          ((declareInner env inside c d.classes).after t)) := by
  cases d
  unfold visitsClass
  dsimp only
  rw [h]
  rfl

mutual

def visitsNamespace (env : Env) (p : Place) : NamespaceDecl → State → List Visit
  | ⟨decls, classes, namespaces⟩, s =>
    let v : Visit := ⟨.ofNamespace p ⟨decls, classes, namespaces⟩, s⟩
    match v.accepted? with
    | none => [v]
    | some entry =>
      let c := s.store.classes.size
      let inside := p.enter c decls.name
      let s := s.opened env { entry } decls.enums
      let t := (declareInner env inside c classes).after s
      v :: visitsClasses env inside (adopt c) classes s ++
        visitsEach env (.ofTypedef inside) (adopt c) decls.typedefs t ++
        visitsNamespaces env inside (adopt c) namespaces
          ((declareTypedefs env inside (adopt c) decls.typedefs).after t)

def visitsNamespaces (env : Env) (p : Place) (file : ClassId → State → State) :
    List NamespaceDecl → State → List Visit
  | [], _ => []
  | d :: ds, s =>
    visitsNamespace env p d s ++
      visitsNamespaces env p file ds ((fileWith file (declareNamespace env p d)).after s)

end

theorem visitsNamespace_rejected {env : Env} {p : Place} {d : NamespaceDecl} {s : State}
    (h : (⟨.ofNamespace p d, s⟩ : Visit).accepted? = none) :
    visitsNamespace env p d s = [⟨.ofNamespace p d, s⟩] := by
  cases d
  unfold visitsNamespace
  dsimp only
  rw [h]

theorem visitsNamespace_accepted {env : Env} {p : Place} {d : NamespaceDecl} {s : State}
    {entry : Entry} (h : (⟨.ofNamespace p d, s⟩ : Visit).accepted? = some entry) :
    visitsNamespace env p d s =
      let c := s.store.classes.size
      let inside := p.enter c d.name
      let t := s.opened env { entry } d.decls.enums
      let u := (declareInner env inside c d.classes).after t
      ⟨.ofNamespace p d, s⟩ :: (visitsClasses env inside (adopt c) d.classes t ++
        visitsEach env (.ofTypedef inside) (adopt c) d.decls.typedefs u ++
        visitsNamespaces env inside (adopt c) d.namespaces
          ((declareTypedefs env inside (adopt c) d.decls.typedefs).after u)) := by
  cases d
  unfold visitsNamespace
  dsimp only
  rw [h]
  rfl

/-- Everything that the first pass comes to, in its order. -/
def visits (env : Env) (s : State) : List Visit :=
  let global := env.header.global
  let file (c : ClassId) (s : State) : State := s.addClass c
  let t := (global.classes.forM fun d => fileWith file (declareClass env {} d)).after s
  let u := (global.namespaces.forM fun d => fileWith file (declareNamespace env {} d)).after t
  let v := addGlobalEnums env u
  let w := (global.decls.typedefs.forM fun d => fileWith file (declareTypedef env {} d)).after v
  visitsClasses env {} file global.classes s ++ visitsNamespaces env {} file global.namespaces t ++
    visitsEach env (.ofTypedef {}) file global.decls.typedefs v ++
    visitsEach env .ofRule file w.db.typedefs w

/-! ### What the visits yield -/

/-- What a part of the first pass does. Its visits yield the classes that it creates, one each and
for the entries of these; all of them are filed but the last ones, which are pending. -/
structure Declared (env : Env) (vs : List Visit) (last : List ClassId) (s t : State) : Prop where
  size_le : s.store.classes.size ≤ t.store.classes.size
  head : ∀ i < s.store.classes.size, (t.store.get i).head = (s.store.get i).head
  classes : vs.filterMap (·.class? env) =
    List.range' s.store.classes.size (t.store.classes.size - s.store.classes.size)
  entries : ∀ v ∈ vs, v.accepted? = (v.class? env).map fun c => (t.store.get c).entry
  pending : ∀ {P}, Pending P s → Pending (last ++ P) t

namespace Declared
variable {env : Env} {vs ws : List Visit} {last : List ClassId} {s t u : State}

theorem lt_size (h : Declared env vs last s t) {v : Visit} (hv : v ∈ vs) {c : ClassId}
    (hc : v.class? env = some c) : c < t.store.classes.size := by
  have hmem : c ∈ vs.filterMap (·.class? env) := List.mem_filterMap.mpr ⟨v, hv, hc⟩
  rw [h.classes, List.mem_range'_1, Nat.add_sub_cancel' h.size_le] at hmem
  exact hmem.2

theorem of_quiet (h : Quiet s t) : Declared env [] [] s t := by
  refine ⟨Nat.le_of_eq h.size.symm, fun i _ => BoundClass.head_eq_of_ties (h.ties i), ?_,
    fun v hv => absurd hv List.not_mem_nil, fun hp => hp.quiet h⟩
  rw [h.size, Nat.sub_self]
  rfl

theorem trans (h : Declared env vs [] s t) (k : Declared env ws last t u) :
    Declared env (vs ++ ws) last s u := by
  refine ⟨Nat.le_trans h.size_le k.size_le, fun i hi => ?_, ?_, fun v hv => ?_,
    fun hp => k.pending (h.pending hp)⟩
  · rw [k.head i (Nat.lt_of_lt_of_le hi h.size_le), h.head i hi]
  · have hst := h.size_le
    have htu := k.size_le
    have hstart : t.store.classes.size =
        s.store.classes.size + (t.store.classes.size - s.store.classes.size) := by omega
    have hlength : u.store.classes.size - s.store.classes.size =
        (t.store.classes.size - s.store.classes.size) +
          (u.store.classes.size - t.store.classes.size) := by omega
    rw [List.filterMap_append, h.classes, k.classes, hlength, ← List.range'_append_1, ← hstart]
  · rcases List.mem_append.mp hv with hv | hv
    · rw [h.entries v hv]
      cases hc : v.class? env with
      | none => rfl
      | some c =>
        have hentry := BoundClass.entry_eq_of_head (k.head c (h.lt_size hv hc))
        simp only [Option.map_some, hentry]
    · exact k.entries v hv

/-- Nothing comes of the visit. -/
theorem rejected {v : Visit} (hentry : v.accepted? = none) (hclass : v.class? env = none)
    (h : Quiet s t) : Declared env [v] [] s t := by
  have hquiet : Declared env [] [] s t := of_quiet h
  refine ⟨hquiet.size_le, hquiet.head, ?_, fun w hw => ?_, hquiet.pending⟩
  · rw [← hquiet.classes]
    simp [hclass]
  · rw [List.mem_singleton.mp hw, hentry, hclass]
    rfl

theorem quiet (h : Declared env vs last s t) (hq : Quiet t u) : Declared env vs last s u := by
  have hentry : ∀ c, (u.store.get c).entry = (t.store.get c).entry :=
    fun c => BoundClass.entry_eq_of_head (BoundClass.head_eq_of_ties (hq.ties c))
  refine ⟨hq.size ▸ h.size_le, fun i hi => ?_, ?_, fun v hv => ?_, fun hp => (h.pending hp).quiet hq⟩
  · rw [BoundClass.head_eq_of_ties (hq.ties i), h.head i hi]
  · rw [hq.size]
    exact h.classes
  · simp only [hentry]
    exact h.entries v hv

/-- The visit yields a new class, in which more is declared. -/
theorem accepted {v : Visit} (new : BoundClass) (hentry : v.accepted? = some new.entry)
    (hclass : v.class? env = some s.store.classes.size) (hlinks : new.Unlinked)
    (hinner : new.inner = []) (hquiet : Quiet (s.createClass new).2 t)
    (h : Declared env vs [] t u) : Declared env (v :: vs) [s.store.classes.size] s u := by
  have hcreated : t.store.classes.size = s.store.classes.size + 1 :=
    hquiet.size.trans (s.store.size_create new)
  have hle := h.size_le
  have hhead : ∀ i ≤ s.store.classes.size,
      (u.store.get i).head = ((s.createClass new).2.store.get i).head := by
    intro i hi
    rw [h.head i (by omega), BoundClass.head_eq_of_ties (hquiet.ties i)]
  refine ⟨by omega, fun i hi => ?_, ?_, fun w hw => ?_, fun hp => ?_⟩
  · rw [hhead i (Nat.le_of_lt hi)]
    exact congrArg BoundClass.head (s.store.get_create_of_lt new hi)
  · have hlength : u.store.classes.size - s.store.classes.size =
        u.store.classes.size - t.store.classes.size + 1 := by omega
    rw [List.filterMap_cons_some hclass, h.classes, hcreated, hlength, List.range'_succ, hcreated]
  · rcases List.mem_cons.mp hw with rfl | hw
    · have hself := hhead _ (Nat.le_refl _)
      have hnew : (s.createClass new).2.store.get s.store.classes.size = new :=
        s.store.get_create_self new
      rw [hnew] at hself
      rw [hentry, hclass, Option.map_some, BoundClass.entry_eq_of_head hself]
    · exact h.entries w hw
  · exact h.pending ((hp.createClass hlinks hinner).quiet hquiet)

theorem file {file : ClassId → State → State} (hfile : Files file) {c : ClassId}
    (h : Declared env vs [c] s t) : Declared env vs [] s (file c t) := by
  refine ⟨?_, fun i hi => ?_, ?_, fun v hv => ?_, fun hp => hfile.pending (h.pending hp)⟩
  · rw [hfile.size]
    exact h.size_le
  · rw [hfile.head]
    exact h.head i hi
  · rw [hfile.size]
    exact h.classes
  · have hentry : ∀ i, ((file c t).store.get i).entry = (t.store.get i).entry :=
      fun i => BoundClass.entry_eq_of_head (hfile.head c t i)
    simp only [hentry]
    exact h.entries v hv

end Declared

/-- Where declaring succeeds, its visits yield what it creates, and the class that it returns is to
be filed. -/
def Yields (env : Env) (m : Build (Option ClassId)) (vs : List Visit) (s : State) : Prop :=
  Build.Ensures (fun c? t => Declared env vs c?.toList s t) m s

/-- The same of declaring what is filed at once. -/
def Adds (env : Env) (m : Build Unit) (vs : List Visit) (s : State) : Prop :=
  Build.Ensures (fun _ t => Declared env vs [] s t) m s

section
variable {env : Env} {p : Place} {s : State} {vs ws : List Visit}

/-- What the first visit yields is what declaring its origin returns. -/
theorem Origin.ensures_declare {o : Origin} {q : Option ClassId → State → Prop}
    (h : Build.Ensures (fun c? t => (⟨o, s⟩ : Visit).class? env = c? → q c? t)
      (o.declare env) s) : Build.Ensures q (o.declare env) s := by
  intro c? t hrun
  refine h c? t hrun ?_
  unfold Visit.class?
  rw [hrun]

theorem Yields.file {m : Build (Option ClassId)} {file : ClassId → State → State}
    (hfile : Files file) (hm : Yields env m vs s) : Adds env (fileWith file m) vs s := by
  refine Build.Ensures.bind hm fun c? t hdeclared => ?_
  cases c? with
  | none => exact .pure hdeclared
  | some c => exact .modify (hdeclared.file hfile)

theorem Adds.nil {t : State} : Adds env (pure ()) [] t := .pure (.of_quiet (.refl t))

/-- What follows starts where the declarations end. -/
theorem Adds.bind {α : Type} {q : α → State → Prop} {m : Build Unit} {f : Unit → Build α}
    (hm : Adds env m vs s)
    (hf : Declared env vs [] s (m.after s) → Build.Ensures q (f ()) (m.after s)) :
    Build.Ensures q (m >>= f) s :=
  .bind_after hm hf

theorem Adds.andThen {m n : Build Unit} (hm : Adds env m vs s) (hn : Adds env n ws (m.after s)) :
    Adds env (m >>= fun _ => n) (vs ++ ws) s :=
  hm.bind fun h => hn.mono fun _ _ => h.trans

theorem visitsEach_adds {α : Type} {origin : α → Origin} {file : ClassId → State → State}
    (hfile : Files file) (hone : ∀ a s, Yields env ((origin a).declare env) [⟨origin a, s⟩] s)
    (l : List α) (s : State) :
    Adds env (l.forM fun a => fileWith file ((origin a).declare env))
      (visitsEach env origin file l s) s := by
  induction l generalizing s with
  | nil => exact .nil
  | cons a l ih =>
    show Adds env _ ([⟨origin a, s⟩] ++ _) s
    exact ((hone a s).file hfile).andThen (ih _)

theorem declareTypedef_yields (d : TypedefDecl) :
    Yields env (declareTypedef env p d) [⟨.ofTypedef p d, s⟩] s := by
  refine Origin.ensures_declare (o := .ofTypedef p d) (.get_bind ?_)
  dsimp only
  split
  · next primitive hprimitive =>
    have hentry : (⟨.ofTypedef p d, s⟩ : Visit).accepted? = none := by
      simp [Visit.accepted?, Origin.accepted?, hprimitive]
    have hquiet : ∀ {m : Build PUnit}, Outcome Quiet (fun _ _ => True) m s →
        Build.Ensures (fun c? t => (⟨.ofTypedef p d, s⟩ : Visit).class? env = c? →
          Declared env [⟨.ofTypedef p d, s⟩] c?.toList s t) (do m; pure none) s :=
      fun hm => .bind hm.ensures fun _ t ht => .pure fun hclass => .rejected hentry hclass ht
    split
    · split
      · exact hquiet (.pure ⟨⟩)
      · exact hquiet (.modify ((Quiet.refl s).modifyDatabase _))
    · exact hquiet (.pure ⟨⟩)
  · next hprimitive =>
    split
    · next hnone =>
      refine .pure fun hclass => .rejected ?_ hclass (.refl s)
      simp [Visit.accepted?, Origin.accepted?, hnone]
    · next entry hsome =>
      refine .set_bind (.bind (fillAdded_quiet _).ensures fun _ t ht => .pure fun hclass => ?_)
      have hquiet := ((Quiet.refl _).applyInclude env entry d.file?).trans ht
      refine .accepted (.typedef entry d.target.text) ?_ hclass ⟨rfl, rfl, rfl⟩ rfl hquiet
        (.of_quiet (.refl _))
      simp [Visit.accepted?, Origin.accepted?, hprimitive, hsome, BoundClass.typedef]

theorem declareRuleTypedef_yields (e : Entry) :
    Yields env (declareRuleTypedef env e) [⟨.ofRule e, s⟩] s := by
  refine Origin.ensures_declare (o := .ofRule e) (.get_bind ?_)
  dsimp only
  split
  · next target source htarget hsource =>
    split
    · next hknown =>
      refine .pure fun hclass => .rejected ?_ hclass (.refl s)
      have hfound := Option.isSome_iff_ne_none.mp hknown
      simp [Visit.accepted?, Origin.accepted?, htarget, hsource, hfound]
    · next hnew =>
      refine .set_bind (.bind (fillAdded_quiet _).ensures fun _ t ht => .pure fun hclass => ?_)
      refine .accepted (.typedef target source) ?_ hclass ⟨rfl, rfl, rfl⟩ rfl ht
        (.of_quiet (.refl _))
      simpa [Visit.accepted?, Origin.accepted?, htarget, hsource, BoundClass.typedef] using hnew
  · next hnone =>
    refine .pure fun hclass => .rejected ?_ hclass (.refl s)
    show (if e.typedefSource?.isSome then
      e.typedefTarget?.filter fun t => (s.classOf? t).isNone else none) = none
    cases hsource : e.typedefSource? with
    | none => rfl
    | some source =>
      cases htarget : e.typedefTarget? with
      | none => rfl
      | some target => exact absurd hsource (hnone target source htarget)

theorem declareInner_cons (env : Env) (p : Place) (parent : ClassId) (d : ClassDecl)
    (ds : List ClassDecl) : declareInner env p parent (d :: ds) =
      fileWith (adopt parent) (declareClass env p d) >>= fun _ => declareInner env p parent ds := by
  conv_lhs => unfold declareInner
  unfold fileWith
  rw [bind_assoc]
  congr
  funext c?
  cases c? <;> rfl

theorem declareNamespaces_cons (env : Env) (p : Place) (parent : ClassId) (d : NamespaceDecl)
    (ds : List NamespaceDecl) : declareNamespaces env p parent (d :: ds) =
      fileWith (adopt parent) (declareNamespace env p d) >>= fun _ =>
        declareNamespaces env p parent ds := by
  conv_lhs => unfold declareNamespaces
  unfold fileWith
  rw [bind_assoc]
  congr
  funext c?
  cases c? <;> rfl

end

/-- Opening a new class is quiet. -/
theorem opened_quiet (env : Env) (s : State) (new : BoundClass) (enums : List EnumDecl) :
    Quiet (s.createClass new).2 (s.opened env new enums) :=
  addEnums_quiet env _ enums _

theorem declareTypedefs_adds (env : Env) (p : Place) {file : ClassId → State → State}
    (hfile : Files file) (l : List TypedefDecl) (s : State) :
    Adds env (declareTypedefs env p file l) (visitsEach env (.ofTypedef p) file l s) s :=
  visitsEach_adds hfile (fun d _ => declareTypedef_yields d) l s

mutual

theorem declareClass_yields (env : Env) (p : Place) (s : State) :
    (d : ClassDecl) → Yields env (declareClass env p d) (visitsClass env p d s) s
  | ⟨decls, classes, bases, templateParams, isFinal, properties⟩ => by
    refine Origin.ensures_declare
      (o := .ofClass p ⟨decls, classes, bases, templateParams, isFinal, properties⟩) ?_
    show Build.Ensures _ (declareClass env p _) s
    unfold declareClass
    refine .get_bind ?_
    dsimp only
    split
    · next hclass =>
      have hentry : (⟨.ofClass p ⟨decls, classes, bases, templateParams, isFinal, properties⟩,
          s⟩ : Visit).accepted? = none := by
        simp [Visit.accepted?, Origin.accepted?, ClassDecl.name, hclass, Except.toOption]
      rw [visitsClass_rejected hentry]
      exact .modify_bind (.pure fun hnone => .rejected hentry hnone ((Quiet.refl s).reject _ _))
    · next entry hclass =>
      have hentry : (⟨.ofClass p ⟨decls, classes, bases, templateParams, isFinal, properties⟩,
          s⟩ : Visit).accepted? = some entry := by
        simp [Visit.accepted?, Origin.accepted?, ClassDecl.name, hclass, Except.toOption]
      rw [visitsClass_accepted hentry]
      refine .set_bind ((declareInner_adds env _ _ _ classes).bind fun hinner => ?_)
      refine (declareTypedefs_adds env _ (.enclosed _) decls.typedefs _).bind fun htypedefs => ?_
      refine .modify_bind (.modify_bind (.pure fun hsome => ?_))
      have hwithin := hinner.trans htypedefs
      refine .accepted
        (newClass entry ⟨decls, classes, bases, templateParams, isFinal, properties⟩) hentry hsome
        ⟨rfl, rfl, rfl⟩ rfl (opened_quiet env s _ decls.enums) (hwithin.quiet ?_)
      refine Quiet.trans ?_ (openScope_quiet _ _ _)
      exact (addProperties_quiet env _ _ properties _).applyInclude env entry decls.file?

theorem declareInner_adds (env : Env) (p : Place) (parent : ClassId) (s : State) :
    (l : List ClassDecl) →
      Adds env (declareInner env p parent l) (visitsClasses env p (adopt parent) l s) s
  | [] => .nil
  | d :: ds => by
    rw [declareInner_cons]
    exact ((declareClass_yields env p s d).file (.adopt parent)).andThen
      (declareInner_adds env p parent _ ds)

end

mutual

theorem declareNamespace_yields (env : Env) (p : Place) (s : State) :
    (d : NamespaceDecl) → Yields env (declareNamespace env p d) (visitsNamespace env p d s) s
  | ⟨decls, classes, namespaces⟩ => by
    refine Origin.ensures_declare (o := .ofNamespace p ⟨decls, classes, namespaces⟩) ?_
    show Build.Ensures _ (declareNamespace env p _) s
    unfold declareNamespace
    refine .get_bind ?_
    dsimp only
    split
    · next hexcluded =>
      have hentry : (⟨.ofNamespace p ⟨decls, classes, namespaces⟩, s⟩ : Visit).accepted? = none := by
        simp [Visit.accepted?, Origin.accepted?, NamespaceDecl.name, hexcluded]
      rw [visitsNamespace_rejected hentry]
      exact .modify_bind (.pure fun hnone => .rejected hentry hnone ((Quiet.refl s).reject _ _))
    · next hunknown =>
      have hentry : (⟨.ofNamespace p ⟨decls, classes, namespaces⟩, s⟩ : Visit).accepted? = none := by
        simp [Visit.accepted?, Origin.accepted?, NamespaceDecl.name, hunknown]
      rw [visitsNamespace_rejected hentry]
      exact .modify_bind (.pure fun hnone => .rejected hentry hnone ((Quiet.refl s).warn _))
    · next entry hincluded hfound =>
      have hentry : (⟨.ofNamespace p ⟨decls, classes, namespaces⟩, s⟩ : Visit).accepted? =
          some entry := by
        simp [Visit.accepted?, Origin.accepted?, NamespaceDecl.name, hincluded, hfound]
      rw [visitsNamespace_accepted hentry]
      refine .set_bind ((declareInner_adds env _ _ _ classes).bind fun hinner => ?_)
      refine (declareTypedefs_adds env _ (.adopt _) decls.typedefs _).bind fun htypedefs => ?_
      refine (declareNamespaces_adds env _ _ _ namespaces).bind fun hnamespaces => ?_
      refine .modify_bind (.pure fun hsome => ?_)
      refine .accepted { entry } hentry hsome ⟨rfl, rfl, rfl⟩ rfl
        (opened_quiet env s _ decls.enums) (((hinner.trans htypedefs).trans hnamespaces).quiet ?_)
      exact ((Quiet.refl _).applyInclude env entry decls.file?).trans (openScope_quiet _ _ _)

theorem declareNamespaces_adds (env : Env) (p : Place) (parent : ClassId) (s : State) :
    (l : List NamespaceDecl) →
      Adds env (declareNamespaces env p parent l) (visitsNamespaces env p (adopt parent) l s) s
  | [] => .nil
  | d :: ds => by
    rw [declareNamespaces_cons]
    exact ((declareNamespace_yields env p s d).file (.adopt parent)).andThen
      (declareNamespaces_adds env p parent _ ds)

end

section
variable {env : Env} {p : Place} {file : ClassId → State → State}

theorem visitsClasses_adds (hfile : Files file) (l : List ClassDecl) (s : State) :
    Adds env (l.forM fun d => fileWith file (declareClass env p d))
      (visitsClasses env p file l s) s := by
  induction l generalizing s with
  | nil => exact .nil
  | cons d l ih => exact ((declareClass_yields env p s d).file hfile).andThen (ih _)

theorem visitsNamespaces_adds (hfile : Files file) (l : List NamespaceDecl) (s : State) :
    Adds env (l.forM fun d => fileWith file (declareNamespace env p d))
      (visitsNamespaces env p file l s) s := by
  induction l generalizing s with
  | nil => exact .nil
  | cons d l ih => exact ((declareNamespace_yields env p s d).file hfile).andThen (ih _)

theorem declareRuleTypedefs_eq (env : Env) : declareRuleTypedefs env = (do
    let s ← get
    s.db.typedefs.forM fun e =>
      fileWith (fun c s => s.addClass c) (declareRuleTypedef env e)) := by
  unfold declareRuleTypedefs
  congr
  funext s
  congr
  funext e
  unfold fileWith declareRuleTypedef
  rw [bind_assoc]
  congr
  funext s
  cases e.typedefTarget? with
  | none => rfl
  | some target =>
    cases e.typedefSource? with
    | none => rfl
    | some source =>
      dsimp only
      split
      · rfl
      · simp only [bind_assoc]
        rfl

end

theorem declareAll_adds (env : Env) (s : State) : Adds env (declareAll env) (visits env s) s := by
  unfold declareAll
  rw [declareRuleTypedefs_eq]
  refine (visitsClasses_adds .addClass env.header.global.classes s).bind fun hclasses => ?_
  refine (visitsNamespaces_adds .addClass env.header.global.namespaces _).bind
    fun hnamespaces => ?_
  refine .modify_bind ?_
  refine (visitsEach_adds .addClass (fun d _ => declareTypedef_yields d)
    env.header.global.decls.typedefs _).bind fun htypedefs => .get_bind ?_
  refine (visitsEach_adds .addClass (fun e _ => declareRuleTypedef_yields e) _ _).mono
    fun _ t hrules => ?_
  have hscopes := (hclasses.trans hnamespaces).quiet (addGlobalEnums_quiet env _)
  exact (hscopes.trans htypedefs).trans hrules

end Assembly
end BindingModel
