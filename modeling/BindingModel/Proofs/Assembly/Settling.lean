import BindingModel.Proofs.Assembly.Filing

/-! What resolving bases changes: links are added, and only to classes that were not settled. -/
namespace BindingModel
open Api

namespace Api.BoundClass
variable {c d e : BoundClass}

/-- Links may have been added to a class. -/
structure Gains (c d : BoundClass) : Prop where
  head : d.head = c.head
  enclosing? : d.enclosing? = c.enclosing?
  inner : d.inner = c.inner
  base? : ∀ b, c.base? = some b → d.base? = some b
  interfaces : c.interfaces ⊆ d.interfaces

namespace Gains

theorem of_ties (h : d.ties = c.ties) : c.Gains d := by
  refine ⟨head_eq_of_ties h, congrArg ClassTies.enclosing? h, inner_eq_of_ties h, fun b hb => ?_,
    fun i hi => ?_⟩
  · rw [base?_eq_of_ties h, hb]
  · rwa [interfaces_eq_of_ties h]

theorem refl (c : BoundClass) : c.Gains c := of_ties rfl

theorem trans (h : c.Gains d) (k : d.Gains e) : c.Gains e :=
  ⟨k.head.trans h.head, k.enclosing?.trans h.enclosing?, k.inner.trans h.inner,
    fun b hb => k.base? b (h.base? b hb), fun _ hi => k.interfaces (h.interfaces hi)⟩

theorem setBase (h : c.Gains d) (b : ClassId) : c.Gains (d.setBase b) := by
  refine ⟨h.head, h.enclosing?, h.inner, fun b' hb => ?_, h.interfaces⟩
  show d.base?.or (some b) = some b'
  rw [h.base? b' hb, Option.some_or]

theorem setTemplateBase (h : c.Gains d) (t : ClassId) (args : List Entry) :
    c.Gains (d.setTemplateBase t args) :=
  ⟨h.head, h.enclosing?, h.inner, h.base?, h.interfaces⟩

theorem addInterface (h : c.Gains d) (i : ClassId) : c.Gains (d.addInterface i) := by
  unfold BoundClass.addInterface
  split
  · exact h
  · exact ⟨h.head, h.enclosing?, h.inner, h.base?,
      fun j hj => List.mem_append_left _ (h.interfaces hj)⟩

theorem addInterfaces (h : c.Gains d) (l : List ClassId) :
    c.Gains (l.foldl (·.addInterface ·) d) :=
  List.foldlRecOn l _ h fun _ hd i _ => hd.addInterface i

end Gains

/-! ### Interfaces -/

section
variable {i j : ClassId} {l : List ClassId}

theorem mem_interfaces_addInterface :
    j ∈ (c.addInterface i).interfaces ↔ j = i ∨ j ∈ c.interfaces := by
  unfold addInterface
  split
  · next hi =>
    constructor
    · exact .inr
    · rintro (rfl | hj)
      · exact hi
      · exact hj
  · simp [or_comm]

theorem mem_interfaces_addInterfaces :
    j ∈ (l.foldl (·.addInterface ·) c).interfaces ↔ j ∈ l ∨ j ∈ c.interfaces := by
  induction l generalizing c with
  | nil => simp
  | cons i l ih =>
    rw [List.foldl_cons, ih, mem_interfaces_addInterface, List.mem_cons]
    tauto

theorem nodup_addInterface (h : c.interfaces.Nodup) : (c.addInterface i).interfaces.Nodup := by
  unfold addInterface
  split
  · exact h
  · next hi => exact List.nodup_append_comm.mp (List.nodup_cons.mpr ⟨hi, h⟩)

theorem nodup_addInterfaces (h : c.interfaces.Nodup) :
    (l.foldl (·.addInterface ·) c).interfaces.Nodup :=
  List.foldlRecOn (motive := fun c : BoundClass => c.interfaces.Nodup) l _ h
    fun _ hd _ _ => nodup_addInterface hd

theorem base?_addInterface : (c.addInterface i).base? = c.base? := by
  unfold addInterface
  split <;> rfl

theorem base?_addInterfaces : (l.foldl (·.addInterface ·) c).base? = c.base? := by
  refine List.foldlRecOn (motive := fun d : BoundClass => d.base? = c.base?) l _ rfl
    fun d hd i _ => ?_
  exact base?_addInterface.trans hd

theorem templateBase?_addInterfaces :
    (l.foldl (·.addInterface ·) c).templateBase? = c.templateBase? := by
  refine List.foldlRecOn (motive := fun d : BoundClass => d.templateBase? = c.templateBase?) l _ rfl
    fun d hd i _ => ?_
  refine Eq.trans ?_ hd
  unfold addInterface
  split <;> rfl

end

end Api.BoundClass

namespace Assembly

/-- The name of the template that the class is an instance of: its only base, with arguments. -/
def templateName? (c : BoundClass) : Option String :=
  match c.baseNames with
  | [name] => if name.toList.contains '<' then some name else none
  | _ => none

/-- Bases were resolved: links were added to the active classes and to those settled since. -/
structure Settling (active : List ClassId) (s t : State) : Prop where
  registry : t.registry = s.registry
  templates : t.templates = s.templates
  smartPointers : t.smartPointers = s.smartPointers
  released : t.store.released = s.store.released
  size : t.store.classes.size = s.store.classes.size
  gains : ∀ c, (s.store.get c).Gains (t.store.get c)
  settled : s.settled <:+ t.settled
  kept : ∀ c ∉ active, c ∈ s.settled ∨ c ∉ t.settled →
    (t.store.get c).ties = (s.store.get c).ties

namespace Settling
variable {active : List ClassId} {s t u : State} {i : ClassId}

theorem of_quiet (h : Quiet s t) : Settling active s t := by
  have hsettled : t.settled = s.settled := congrArg Filing.settled h.filing
  exact ⟨congrArg Filing.registry h.filing, congrArg Filing.templates h.filing,
    congrArg Filing.smartPointers h.filing, h.released, h.size, fun c => .of_ties (h.ties c),
    hsettled ▸ List.suffix_rfl, fun c _ _ => h.ties c⟩

theorem refl (s : State) : Settling active s s := of_quiet (.refl s)

theorem trans (h : Settling active s t) (k : Settling active t u) : Settling active s u := by
  refine ⟨k.registry.trans h.registry, k.templates.trans h.templates,
    k.smartPointers.trans h.smartPointers, k.released.trans h.released, k.size.trans h.size,
    fun c => (h.gains c).trans (k.gains c), h.settled.trans k.settled, fun c hout hc => ?_⟩
  have hfirst : c ∈ s.settled ∨ c ∉ t.settled :=
    hc.imp_right fun hc hmem => hc (k.settled.subset hmem)
  have hsecond : c ∈ t.settled ∨ c ∉ u.settled :=
    hc.imp_left fun hc => h.settled.subset hc
  rw [k.kept c hout hsecond, h.kept c hout hfirst]

instance : Std.Refl (Settling active) := ⟨refl⟩

instance : IsTrans State (Settling active) := ⟨fun _ _ _ => trans⟩

theorem isLive (h : Settling active s t) : t.store.isLive = s.store.isLive := by
  funext c
  unfold ClassStore.isLive
  rw [h.size, h.released]

theorem filed (h : Settling active s t) : t.filed = s.filed := by
  unfold State.filed
  rw [h.registry, h.templates, h.smartPointers]

theorem isInterface (h : Settling active s t) (c : ClassId) :
    (t.store.get c).isInterface = (s.store.get c).isInterface := by
  unfold BoundClass.isInterface
  rw [BoundClass.entry_eq_of_head (h.gains c).head]

theorem isNamespace (h : Settling active s t) (c : ClassId) :
    (t.store.get c).isNamespace = (s.store.get c).isNamespace := by
  unfold BoundClass.isNamespace
  rw [BoundClass.entry_eq_of_head (h.gains c).head]

theorem templateName? (h : Settling active s t) (c : ClassId) :
    templateName? (t.store.get c) = templateName? (s.store.get c) := by
  have hnames : (t.store.get c).baseNames = (s.store.get c).baseNames :=
    congrArg ClassHead.baseNames (h.gains c).head
  unfold Assembly.templateName?
  rw [hnames]

/-- Classes that are resolved or being resolved are left alone by the resolving of others. -/
theorem ties_of_settled (h : Settling [] s t) {c : ClassId} (hc : c ∈ s.settled) :
    (t.store.get c).ties = (s.store.get c).ties :=
  h.kept c List.not_mem_nil (.inl hc)

theorem foldl {α : Type} {f : State → α → State} (hf : ∀ s a, Settling active s (f s a))
    (l : List α) (s : State) : Settling active s (l.foldl f s) :=
  List.foldlRecOn l f (refl s) fun t ht a _ => ht.trans (hf t a)

theorem mono (h : Settling [] s t) : Settling active s t :=
  ⟨h.registry, h.templates, h.smartPointers, h.released, h.size, h.gains, h.settled,
    fun c _ => h.kept c List.not_mem_nil⟩

/-- Marking a class as settled links nothing yet. -/
theorem mark (i : ClassId) (s : State) : Settling active s { s with settled := i :: s.settled } :=
  ⟨rfl, rfl, rfl, rfl, rfl, fun _ => .refl _, List.suffix_cons i s.settled, fun _ _ _ => rfl⟩

/-- Only the class itself is active while its bases are resolved, and it is settled before. -/
theorem of_active (hi : i ∉ s.settled)
    (h : Settling [i] { s with settled := i :: s.settled } t) : Settling [] s t := by
  refine ⟨h.registry, h.templates, h.smartPointers, h.released, h.size, h.gains,
    (List.suffix_cons i s.settled).trans h.settled, fun c _ hc => ?_⟩
  have hne : c ≠ i := by
    rintro rfl
    rcases hc with hc | hc
    · exact hi hc
    · exact hc (h.settled.subset List.mem_cons_self)
  refine h.kept c (by simpa using hne) ?_
  exact hc.imp_left fun hc => List.mem_cons_of_mem i hc

theorem modifyClass (h : Settling active s t) (hi : i ∈ active) {f : BoundClass → BoundClass}
    (hf : ∀ c : BoundClass, c.Gains (f c)) : Settling active s (t.modifyClass i f) := by
  refine h.trans ⟨rfl, rfl, rfl, rfl, t.store.size_modify i f, fun c => ?_, List.suffix_rfl,
    fun c hout _ => ?_⟩
  · show (t.store.get c).Gains ((t.store.modify i f).get c)
    rw [ClassStore.get_modify]
    split
    · exact hf _
    · exact .refl _
  · show ((t.store.modify i f).get c).ties = _
    have hne : i ≠ c := fun hic => hout (hic ▸ hi)
    rw [ClassStore.get_modify, if_neg fun hc => hne hc.1]

end Settling

/-! ### Instances -/

/-- The arguments of an instance are bound before any member is taken over. -/
def bindInstance (i t : ClassId) (written : TypeExpr) (s : State) : List BoundType × State :=
  bindArguments i t written written.args <| s.modifyClass i fun c =>
    if c.isTypedef then
      { c with attrs := c.attrs.insertAll (inheritedAttrs.filter (s.store.get t).has) }
    else c

def takeFunctions (env : Env) (i t : ClassId) (written : TypeExpr) (s : State) : State :=
  (s.store.get t).functions.foldl
    (inheritFunction env i (s.store.get t) (bindInstance i t written s).1)
    (bindInstance i t written s).2

def takeFields (env : Env) (i t : ClassId) (written : TypeExpr) (s : State) : State :=
  (s.store.get t).fields.foldl (inheritField env i (s.store.get t) (bindInstance i t written s).1)
    (takeFunctions env i t written s)

/-- The links that a class takes over: the template, and the interfaces and the base of that. -/
def takeLinks (s : ClassStore) (t : ClassId) (args : List Entry) (c : BoundClass) : BoundClass :=
  let c := (s.interfaces t).foldl (·.addInterface ·) (c.setTemplateBase t args)
  (s.base? t).elim c c.setBase

theorem inheritTemplate_eq (env : Env) (i t : ClassId) (written : TypeExpr) (s : State) :
    inheritTemplate env i t written s =
      (takeFields env i t written s).modifyClass i
        (takeLinks (takeFields env i t written s).store t
          ((bindInstance i t written s).1.map (·.entry))) := by
  show (takeFields env i t written s).modifyClass i _ = _
  congr 1
  funext c
  unfold takeLinks
  split
  · next b hb =>
    have hbase : (takeFields env i t written s).store.base? t = some b := hb
    rw [hbase]
    rfl
  · next hb =>
    have hbase : (takeFields env i t written s).store.base? t = none := hb
    rw [hbase]
    rfl

theorem base?_takeLinks (s : ClassStore) (t : ClassId) (args : List Entry) (c : BoundClass) :
    (takeLinks s t args c).base? = c.base?.or (s.base? t) := by
  unfold takeLinks
  cases s.base? t with
  | none => exact BoundClass.base?_addInterfaces.trans (Option.or_none).symm
  | some b => exact congrArg (Option.or · (some b)) BoundClass.base?_addInterfaces

theorem templateBase?_takeLinks (s : ClassStore) (t : ClassId) (args : List Entry)
    (c : BoundClass) : (takeLinks s t args c).templateBase? = c.templateBase?.or (some t) := by
  unfold takeLinks
  cases s.base? t <;> exact BoundClass.templateBase?_addInterfaces

theorem core_takeLinks (s : ClassStore) (t : ClassId) (args : List Entry) (c : BoundClass) :
    (takeLinks s t args c).core = c.core := by
  unfold takeLinks
  cases s.base? t <;> exact BoundClass.core_addInterfaces (c.setTemplateBase t args) _

theorem interfaces_takeLinks (s : ClassStore) (t : ClassId) (args : List Entry) (c : BoundClass) :
    (takeLinks s t args c).interfaces =
      ((s.interfaces t).foldl (·.addInterface ·) (c.setTemplateBase t args)).interfaces := by
  unfold takeLinks
  cases s.base? t <;> rfl

theorem bindInstance_quiet (i t : ClassId) (written : TypeExpr) (s : State) :
    Quiet s (bindInstance i t written s).2 := by
  refine Quiet.trans ((Quiet.refl s).modifyClass i fun c => ?_)
    (bindArguments_quiet i t written written.args _)
  split <;> rfl

theorem takeFunctions_quiet (env : Env) (i t : ClassId) (written : TypeExpr) (s : State) :
    Quiet s (takeFunctions env i t written s) :=
  (bindInstance_quiet i t written s).trans (.foldl (inheritFunction_quiet env i _ _) _ _)

theorem takeFields_quiet (env : Env) (i t : ClassId) (written : TypeExpr) (s : State) :
    Quiet s (takeFields env i t written s) :=
  (takeFunctions_quiet env i t written s).trans (.foldl (inheritField_quiet env i _ _) _ _)

theorem gains_takeLinks (s : ClassStore) (t : ClassId) (args : List Entry) (c : BoundClass) :
    c.Gains (takeLinks s t args c) := by
  have hinterfaces : c.Gains _ :=
    ((BoundClass.Gains.refl c).setTemplateBase t args).addInterfaces (s.interfaces t)
  unfold takeLinks
  cases s.base? t with
  | none => exact hinterfaces
  | some b => exact hinterfaces.setBase b

/-! ### The two ways to resolve bases -/

/-- The position of the primary base: the last class that is no interface. -/
def primary? (s : State) (bases : List ClassId) : Option Nat :=
  (bases.zipIdx.filter fun p => !(s.store.get p.1).isInterface).getLast?.map (·.2)

/-- Make a class a base. It is resolved before, unless it is a namespace. -/
def linkBase (settle : ClassId → State → State) (i : ClassId) (primary : Bool) (b : ClassId)
    (s : State) : State :=
  addBase i primary b (if (s.store.get b).isNamespace then s else settle b s)

/-- Make classes bases, each with its position; the one at the position `k?` is the primary one. -/
def linkEach (settle : ClassId → State → State) (i : ClassId) (k? : Option Nat)
    (l : List (ClassId × Nat)) (s : State) : State :=
  l.foldl (fun t q => linkBase settle i (decide (k? = some q.2)) q.1 t) s

/-- Warn of unknown bases, and where more than one may be the primary one. -/
def warnOfBases (env : Env) (i : ClassId) (s : State) : State :=
  let c := s.store.get i
  let found := findBases env s i c.baseNames
  let candidates := found.1.countP fun b => !(s.store.get b).isInterface
  (s.warnAll found.2).warnIf (candidates > 1) (.severalPrimaryBases c.qualifiedName candidates)

/-- Resolve bases by their names. -/
def linkBases (env : Env) (settle : ClassId → State → State) (i : ClassId) (s : State) : State :=
  let bases := (findBases env s i (s.store.get i).baseNames).1
  linkEach settle i (primary? s bases) bases.zipIdx (warnOfBases env i s)

theorem resolveBases_of_template {env : Env} {settle : ClassId → State → State} {i : ClassId}
    {s : State} {name : String} (h : templateName? (s.store.get i) = some name) :
    resolveBases env settle i s = resolveTemplateBase env settle i name s := by
  unfold templateName? at h
  unfold resolveBases
  split at h
  · next written hwritten =>
    split at h
    · next harguments =>
      obtain rfl := Option.some.inj h
      dsimp only
      rw [hwritten]
      dsimp only
      rw [if_pos harguments]
    · cases h
  · cases h

theorem resolveBases_of_names {env : Env} {settle : ClassId → State → State} {i : ClassId}
    {s : State} (h : templateName? (s.store.get i) = none) :
    resolveBases env settle i s = linkBases env settle i s := by
  unfold templateName? at h
  unfold resolveBases
  extract_lets c byNames
  have hnames : byNames s = linkBases env settle i s := rfl
  split
  · next written hwritten =>
    have hwritten : (s.store.get i).baseNames = [written] := hwritten
    have hplain : ¬ written.toList.contains '<' := by
      intro harguments
      rw [hwritten] at h
      dsimp only at h
      rw [if_pos harguments] at h
      cases h
    rw [if_neg hplain]
    exact hnames
  · exact hnames

/-! ### Resolving is settling -/

theorem warnOfBases_quiet (env : Env) (i : ClassId) (s : State) :
    Quiet s (warnOfBases env i s) :=
  ((Quiet.refl s).warnAll _).warnIf _ _

theorem addBase_settling (i : ClassId) (primary : Bool) (b : ClassId) (s : State) :
    Settling [i] s (addBase i primary b s) := by
  refine (Settling.refl s).modifyClass List.mem_cons_self fun c => ?_
  split
  · exact (BoundClass.Gains.refl c).setBase b
  · exact ((BoundClass.Gains.refl c).addInterface b).addInterfaces _

theorem inheritTemplate_settling (env : Env) (i t : ClassId) (written : TypeExpr) (s : State) :
    Settling [i] s (inheritTemplate env i t written s) := by
  rw [inheritTemplate_eq]
  exact (Settling.of_quiet (takeFields_quiet env i t written s)).modifyClass List.mem_cons_self
    (gains_takeLinks _ t _)

section
variable {settle : ClassId → State → State} (hsettle : ∀ b s, Settling [] s (settle b s))
include hsettle

theorem linkBase_settling (i : ClassId) (primary : Bool) (b : ClassId) (s : State) :
    Settling [i] s (linkBase settle i primary b s) := by
  unfold linkBase
  refine Settling.trans ?_ (addBase_settling i primary b _)
  split
  · exact .refl s
  · exact (hsettle b s).mono

theorem linkEach_settling (i : ClassId) (k? : Option Nat) (l : List (ClassId × Nat)) (s : State) :
    Settling [i] s (linkEach settle i k? l s) := by
  have hstep : ∀ (t : State) (q : ClassId × Nat),
      Settling [i] t (linkBase settle i (decide (k? = some q.2)) q.1 t) := fun t q =>
    linkBase_settling hsettle i (decide (k? = some q.2)) q.1 t
  exact .foldl hstep l s

theorem linkBases_settling (env : Env) (i : ClassId) (s : State) :
    Settling [i] s (linkBases env settle i s) := by
  unfold linkBases
  exact (Settling.of_quiet (warnOfBases_quiet env i s)).trans (linkEach_settling hsettle i _ _ _)

theorem resolveTemplateBase_settling (env : Env) (i : ClassId) (written : String) (s : State) :
    Settling [i] s (resolveTemplateBase env settle i written s) := by
  have hwarned : ∀ ws, Settling [i] s (s.warnAll ws) := fun ws =>
    .of_quiet ((Quiet.refl s).warnAll ws)
  unfold resolveTemplateBase
  dsimp only
  split
  · next t found _ =>
    refine Settling.trans ?_ (.of_quiet ((Quiet.refl _).modifyDatabase _))
    refine Settling.trans ?_ (inheritTemplate_settling env i t found _)
    exact (hwarned _).trans (hsettle t _).mono
  · exact (hwarned _).trans (.of_quiet ((Quiet.refl _).modifyDatabase _))
  · exact (hwarned _).trans (.of_quiet ((Quiet.refl _).warn _))

theorem resolveBases_settling (env : Env) (i : ClassId) (s : State) :
    Settling [i] s (resolveBases env settle i s) := by
  cases h : templateName? (s.store.get i) with
  | none =>
    rw [resolveBases_of_names h]
    exact linkBases_settling hsettle env i s
  | some name =>
    rw [resolveBases_of_template h]
    exact resolveTemplateBase_settling hsettle env i name s

end

theorem settleFrom_settling (env : Env) (n : Nat) (i : ClassId) (s : State) :
    Settling [] s (settleFrom env n i s) := by
  induction n generalizing i s with
  | zero => exact .refl s
  | succ n ih =>
    unfold settleFrom
    split
    · exact .refl s
    · next hi => exact .of_active hi (resolveBases_settling ih env i _)

theorem settle_settling (env : Env) (i : ClassId) (s : State) : Settling [] s (settle env i s) :=
  settleFrom_settling env _ i s

/-- Resolve the bases of a class, unless it is an interface or a namespace. -/
def settleOne (env : Env) (s : State) (i : ClassId) : State :=
  if (s.store.get i).isInterface || (s.store.get i).isNamespace then s else settle env i s

theorem settleAll_eq (env : Env) (s : State) :
    settleAll env s = s.registry.members.foldl (settleOne env) s :=
  rfl

theorem settleOne_settling (env : Env) (s : State) (i : ClassId) :
    Settling [] s (settleOne env s i) := by
  unfold settleOne
  split
  · exact .refl s
  · exact settle_settling env i s

theorem settleAll_settling (env : Env) (s : State) : Settling [] s (settleAll env s) :=
  .foldl (settleOne_settling env) _ s

end Assembly
end BindingModel
