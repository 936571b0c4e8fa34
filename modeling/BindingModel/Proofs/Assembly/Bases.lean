import BindingModel.Proofs.Assembly.Failure
import BindingModel.Proofs.Assembly.Settling

/-! What the bases of a class become, whatever the order in which classes are resolved. -/
namespace BindingModel
open Api

namespace Lookup

theorem mem_members_of_findClass? {l : Lookup} {r : Registry} (hr : l.registry? = some r)
    {name : String} {context? : Option ClassId} {b : ClassId}
    (h : l.findClass? name context? = some b) : b ∈ r.members := by
  have hnamed : ∀ {n}, r.findByName? l.store n = some b → b ∈ r.members :=
    fun h => List.mem_of_find?_eq_some h
  unfold Lookup.findClass? at h
  rw [hr] at h
  dsimp only [Option.bind_some] at h
  split at h
  · next c hc =>
    obtain rfl := Option.some.inj h
    rcases Option.or_eq_some_iff.mp hc with hc | ⟨-, hc⟩
    · obtain ⟨i, -, hc⟩ := Option.bind_eq_some_iff.mp hc
      obtain ⟨scope, -, hc⟩ := List.exists_of_findSome?_eq_some hc
      exact hnamed hc
    · exact hnamed hc
  · split at h
    · next c hc =>
      obtain rfl := Option.some.inj h
      have hmem : c ∈ r.members.filter _ := hc ▸ List.mem_singleton_self c
      exact (List.mem_filter.mp hmem).1
    · cases h

end Lookup

namespace Assembly

/-! ### Names of bases -/

section
variable {env : Env} {s t : State}

theorem findClass?_congr (env : Env) (hregistry : t.registry = s.registry)
    (htemplates : t.templates = s.templates) (hpointers : t.smartPointers = s.smartPointers)
    (hhead : ∀ c, (t.store.get c).head = (s.store.get c).head) :
    t.findClass? env = s.findClass? env := by
  have hname : ∀ c, (t.store.get c).qualifiedName = (s.store.get c).qualifiedName :=
    fun c => congrArg Entry.name (BoundClass.entry_eq_of_head (hhead c))
  have hlocal : ∀ c, (t.store.get c).name = (s.store.get c).name :=
    fun c => congrArg Entry.localName (BoundClass.entry_eq_of_head (hhead c))
  funext name context?
  unfold State.findClass? Lookup.findClass? Registry.findByName?
  simp only [State.lookup, hregistry, htemplates, hpointers, hname, hlocal]

theorem findBases_congr (hclass : t.findClass? env = s.findClass? env)
    (hrejections : t.db.rejections = s.db.rejections) (c : ClassId) (names : List String) :
    (findBases env t c names).1 = (findBases env s c names).1 := by
  have hrejection : t.db.rejection? = s.db.rejection? := by
    funext kind className name
    unfold Database.rejection?
    rw [hrejections]
  unfold findBases
  simp only [hclass, hrejection]

theorem mem_filed_of_findClass? {name : String} {context? : Option ClassId} {b : ClassId}
    (h : s.findClass? env name context? = some b) : b ∈ s.filed := by
  unfold State.findClass? at h
  rcases Option.or_eq_some_iff.mp h with h | ⟨-, h⟩
  · have hmember := Lookup.mem_members_of_findClass? rfl h
    exact List.mem_append_left _ (List.mem_append_left _ hmember)
  · have hmember := List.mem_of_find?_eq_some h
    unfold State.filed
    simpa using .inr (List.mem_append.mp hmember)

theorem mem_filed_of_searchTemplate {written : String} {names : List String} {b : ClassId}
    {e : TypeExpr} (h : (s.searchTemplate written names).found? = some (b, e)) : b ∈ s.filed := by
  induction names with
  | nil => cases h
  | cons name names ih =>
    unfold State.searchTemplate at h
    split at h
    · exact ih h
    · split at h
      · next c hc =>
        obtain ⟨rfl, -⟩ := Prod.mk.inj (Option.some.inj h)
        unfold State.templateNamed? at hc
        unfold State.filed
        rcases Option.or_eq_some_iff.mp hc with hc | ⟨-, hc⟩
        · exact List.mem_append_left _ (List.mem_append_right _ (List.mem_of_find?_eq_some hc))
        · exact List.mem_append_left _ (List.mem_append_left _ (List.mem_of_find?_eq_some hc))
      · exact ih h

/-- The class is an instance of the template that its only base names, as it was found from one of
the scopes around the class. -/
structure Instantiates (s : ClassStore) (c x : ClassId) (written : TypeExpr) : Prop where
  base : ∃ name, templateName? (s.get c) = some name ∧
    ∃ n ∈ State.templateNames (s.get c).qualifiedName name, TypeExpr.parse n = .ok written
  template : (s.get x).qualifiedName = written.qualifiedName

theorem Instantiates.of_head {s t : ClassStore} {c x : ClassId} {written : TypeExpr}
    (h : Instantiates s c x written) (hhead : ∀ b, (t.get b).head = (s.get b).head) :
    Instantiates t c x written := by
  have hqualified : ∀ b, (t.get b).qualifiedName = (s.get b).qualifiedName :=
    fun b => congrArg Entry.name (BoundClass.entry_eq_of_head (hhead b))
  have hnames : (t.get c).baseNames = (s.get c).baseNames :=
    congrArg ClassHead.baseNames (hhead c)
  have htemplate : templateName? (t.get c) = templateName? (s.get c) := by
    unfold templateName?
    rw [hnames]
  obtain ⟨hbase, hx⟩ := h
  rw [← htemplate, ← hqualified] at hbase
  exact ⟨hbase, (hqualified x).trans hx⟩

theorem spelling_of_searchTemplate {written : String} {names : List String} {b : ClassId}
    {e : TypeExpr} (h : (s.searchTemplate written names).found? = some (b, e)) :
    (∃ n ∈ names, TypeExpr.parse n = .ok e) ∧ (s.store.get b).qualifiedName = e.qualifiedName := by
  induction names with
  | nil => cases h
  | cons name names ih =>
    have hrest : ((∃ n ∈ names, TypeExpr.parse n = .ok e) ∧
        (s.store.get b).qualifiedName = e.qualifiedName) →
        (∃ n ∈ name :: names, TypeExpr.parse n = .ok e) ∧
          (s.store.get b).qualifiedName = e.qualifiedName := by
      rintro ⟨⟨n, hn, hparse⟩, hname⟩
      exact ⟨⟨n, List.mem_cons_of_mem name hn, hparse⟩, hname⟩
    unfold State.searchTemplate at h
    split at h
    · exact hrest (ih h)
    · next t hparse =>
      split at h
      · next c hc =>
        obtain ⟨rfl, rfl⟩ := Prod.mk.inj (Option.some.inj h)
        refine ⟨⟨name, List.mem_cons_self, hparse⟩, ?_⟩
        unfold State.templateNamed? at hc
        rcases Option.or_eq_some_iff.mp hc with hc | ⟨-, hc⟩
        · simpa using List.find?_some hc
        · unfold Registry.findByName? at hc
          simpa using List.find?_some hc
      · exact hrest (ih h)

theorem mem_findBases {c b : ClassId} {names : List String} :
    b ∈ (findBases env s c names).1 ↔ ∃ n ∈ names,
      s.db.rejection? .excludeClass n "" = none ∧ s.findClass? env n (some c) = some b := by
  unfold findBases
  simp only [List.mem_filterMap, List.mem_map, List.mem_filter, Option.isNone_iff_eq_none]
  constructor
  · rintro ⟨p, ⟨n, ⟨hn, hr⟩, rfl⟩, hb⟩
    exact ⟨n, hn, hr, hb⟩
  · rintro ⟨n, hn, hr, hb⟩
    exact ⟨_, ⟨n, ⟨hn, hr⟩, rfl⟩, hb⟩

theorem mem_filed_of_mem_findBases {c b : ClassId} {names : List String}
    (h : b ∈ (findBases env s c names).1) : b ∈ s.filed := by
  obtain ⟨n, -, -, hclass⟩ := mem_findBases.mp h
  exact mem_filed_of_findClass? hclass

end

/-- The bases that a class resolved by their names has: the last that is no interface is the
primary one, and every other is an interface of the class. -/
structure Linked (env : Env) (s : State) (c : ClassId) : Prop where
  base : (s.store.get c).base? = ((findBases env s c (s.store.get c).baseNames).1.filter fun b =>
    !(s.store.get b).isInterface).getLast?
  interface : ∀ b ∈ (findBases env s c (s.store.get c).baseNames).1,
    (s.store.get c).base? = some b ∨ b ∈ (s.store.get c).interfaces

theorem Linked.settling {active : List ClassId} {env : Env} {s t : State} {c : ClassId}
    (h : Linked env s c) (hs : Settling active s t)
    (hrejections : t.db.rejections = s.db.rejections)
    (hties : (t.store.get c).ties = (s.store.get c).ties) : Linked env t c := by
  have hclass := findClass?_congr env hs.registry hs.templates hs.smartPointers
    fun b => (hs.gains b).head
  have hnames : (t.store.get c).baseNames = (s.store.get c).baseNames :=
    congrArg ClassHead.baseNames (BoundClass.head_eq_of_ties hties)
  refine ⟨?_, fun b hb => ?_⟩
  · rw [BoundClass.base?_eq_of_ties hties, hnames, findBases_congr hclass hrejections]
    simp only [hs.isInterface]
    exact h.base
  · rw [hnames, findBases_congr hclass hrejections] at hb
    rw [BoundClass.base?_eq_of_ties hties, BoundClass.interfaces_eq_of_ties hties]
    exact h.interface b hb

/-! ### The primary base -/

theorem fst_eq_of_mem_zipIdx {α : Type} {l : List α} {q r : α × Nat} (hq : q ∈ l.zipIdx)
    (hr : r ∈ l.zipIdx) (h : q.2 = r.2) : q.1 = r.1 := by
  have hfirst := List.mem_zipIdx_iff_getElem?.mp hq
  rw [h, List.mem_zipIdx_iff_getElem?.mp hr] at hfirst
  exact (Option.some.inj hfirst).symm

theorem getLast?_filter_zipIdx {α : Type} (p : α → Bool) (l : List α) :
    (l.zipIdx.filter fun q => p q.1).getLast?.map (·.1) = (l.filter p).getLast? := by
  have hfst : (l.zipIdx.filter fun q => p q.1).map (·.1) = l.filter p := by
    conv_rhs => rw [← List.zipIdx_map_fst 0 l, List.filter_map]
    rfl
  rw [← hfst, List.getLast?_map]

/-- The class at the primary position is the last one that is no interface. -/
theorem getLast?_of_primary? {s : State} {bases : List ClassId} {q : ClassId × Nat}
    (hq : q ∈ bases.zipIdx) (h : primary? s bases = some q.2) :
    (bases.filter fun b => !(s.store.get b).isInterface).getLast? = some q.1 := by
  obtain ⟨r, hr, hindex⟩ := Option.map_eq_some_iff.mp h
  have hmem : r ∈ bases.zipIdx := (List.mem_filter.mp (List.mem_of_getLast? hr)).1
  rw [← getLast?_filter_zipIdx, hr, Option.map_some, fst_eq_of_mem_zipIdx hmem hq hindex]

theorem isInterface_of_primary? {s : State} {bases : List ClassId} {q : ClassId × Nat}
    (hq : q ∈ bases.zipIdx) (h : primary? s bases = some q.2) :
    (s.store.get q.1).isInterface = false := by
  have hmem := List.mem_of_getLast? (getLast?_of_primary? hq h)
  simpa using (List.mem_filter.mp hmem).2

theorem find?_primary? (s : State) (bases : List ClassId) :
    (bases.zipIdx.find? fun q => decide (primary? s bases = some q.2)).map (·.1) =
      (bases.filter fun b => !(s.store.get b).isInterface).getLast? := by
  cases hfound : bases.zipIdx.find? fun q => decide (primary? s bases = some q.2) with
  | some q =>
    have hprimary : primary? s bases = some q.2 := by simpa using List.find?_some hfound
    exact (getLast?_of_primary? (List.mem_of_find?_eq_some hfound) hprimary).symm
  | none =>
    cases hlast : (bases.zipIdx.filter fun q => !(s.store.get q.1).isInterface).getLast? with
    | none => rw [← getLast?_filter_zipIdx, hlast]
    | some q =>
      have hmem : q ∈ bases.zipIdx := (List.mem_filter.mp (List.mem_of_getLast? hlast)).1
      have hprimary : primary? s bases = some q.2 := by rw [primary?, hlast, Option.map_some]
      simpa [hprimary] using List.find?_eq_none.mp hfound q hmem

/-! ### Resolving by names -/

section
variable {settle : ClassId → State → State} (hsettle : ∀ b s, Settling [] s (settle b s))
  {i : ClassId} {s : State}

/-- What a new base makes of the class itself. -/
theorem get_addBase (hlt : i < s.store.classes.size) (primary : Bool) (b : ClassId) :
    (addBase i primary b s).store.get i =
      if primary then (s.store.get i).setBase b
      else (s.store.interfaces b).foldl (·.addInterface ·) ((s.store.get i).addInterface b) :=
  get_modifyClass_self hlt _

/-- A new base is a link and no more. -/
theorem core_addBase (i : ClassId) (primary : Bool) (b : ClassId) (s : State) (c : ClassId) :
    ((addBase i primary b s).store.get c).core = (s.store.get c).core ∧
      ((addBase i primary b s).store.get c).templateBase? = (s.store.get c).templateBase? := by
  show ((s.store.modify i _).get c).core = _ ∧ ((s.store.modify i _).get c).templateBase? = _
  rw [ClassStore.get_modify]
  split
  · cases primary with
    | true => exact ⟨rfl, rfl⟩
    | false =>
      constructor
      · exact (BoundClass.core_addInterfaces _ _).trans (BoundClass.core_addInterface _ _)
      · exact BoundClass.templateBase?_addInterfaces.trans
          (BoundClass.templateBase?_addInterfaces (l := [b]))
  · exact ⟨rfl, rfl⟩

theorem base?_addBase (hlt : i < s.store.classes.size) (primary : Bool) (b : ClassId) :
    ((addBase i primary b s).store.get i).base? =
      if primary then (s.store.get i).base?.or (some b) else (s.store.get i).base? := by
  rw [get_addBase hlt]
  cases primary with
  | true => rfl
  | false => exact BoundClass.base?_addInterfaces.trans BoundClass.base?_addInterface

theorem mem_interfaces_addBase (hlt : i < s.store.classes.size) {primary : Bool} {b j : ClassId} :
    j ∈ ((addBase i primary b s).store.get i).interfaces ↔
      primary = false ∧ (j ∈ s.store.interfaces b ∨ j = b) ∨ j ∈ (s.store.get i).interfaces := by
  rw [get_addBase hlt]
  cases primary with
  | true => simp [BoundClass.setBase]
  | false =>
    rw [if_neg Bool.false_ne_true, BoundClass.mem_interfaces_addInterfaces,
      BoundClass.mem_interfaces_addInterface]
    tauto

include hsettle

theorem get_linkBase (hi : i ∈ s.settled) (hlt : i < s.store.classes.size) (primary : Bool)
    (b : ClassId) :
    ((linkBase settle i primary b s).store.get i).base? =
        (if primary then (s.store.get i).base?.or (some b) else (s.store.get i).base?) ∧
      (primary = false → b ∈ ((linkBase settle i primary b s).store.get i).interfaces) := by
  unfold linkBase
  generalize hu : (if (s.store.get b).isNamespace then s else settle b s) = u
  have hsettling : Settling [] s u := by
    rw [← hu]
    split
    · exact .refl s
    · exact hsettle b s
  have hlt : i < u.store.classes.size := hsettling.size ▸ hlt
  rw [base?_addBase hlt, BoundClass.base?_eq_of_ties (hsettling.ties_of_settled hi)]
  exact ⟨rfl, fun hp => (mem_interfaces_addBase hlt).mpr (.inl ⟨hp, .inr rfl⟩)⟩

/-- Of bases with positions, the one at the primary position is the primary base, and the others are
interfaces. -/
theorem get_linkEach (hi : i ∈ s.settled) (hlt : i < s.store.classes.size) (k? : Option Nat)
    (l : List (ClassId × Nat)) :
    ((linkEach settle i k? l s).store.get i).base? =
        (s.store.get i).base?.or ((l.find? fun q => decide (k? = some q.2)).map (·.1)) ∧
      ∀ q ∈ l, k? ≠ some q.2 → q.1 ∈ ((linkEach settle i k? l s).store.get i).interfaces := by
  induction l generalizing s with
  | nil => simp [linkEach]
  | cons q l ih =>
    have hstep := linkBase_settling hsettle i (decide (k? = some q.2)) q.1 s
    obtain ⟨hbase, hinterface⟩ := get_linkBase hsettle hi hlt (decide (k? = some q.2)) q.1
    obtain ⟨hrest, hothers⟩ := ih (hstep.settled.subset hi) (hstep.size ▸ hlt)
    refine ⟨hrest.trans ?_, fun r hr hne => ?_⟩
    · rw [hbase]
      by_cases hk : k? = some q.2
      · simp [hk]
      · simp [hk]
    · rcases List.mem_cons.mp hr with rfl | hr
      · have hgains := linkEach_settling hsettle i k? l
          (linkBase settle i (decide (k? = some r.2)) r.1 s)
        exact (hgains.gains i).interfaces (hinterface (by simpa using hne))
      · exact hothers r hr hne

end

/-! ### What every resolving keeps -/

/-- Primary bases are no interfaces, interfaces are listed once, and every class that is resolved by
names and not among `P`, the classes being resolved, has the bases that its names mean. -/
structure Sound (env : Env) (P : List ClassId) (s : State) : Prop where
  live : ∀ c ∈ s.filed, s.store.isLive c = true
  base : ∀ c b, (s.store.get c).base? = some b → (s.store.get b).isInterface = false
  nodup : ∀ c, (s.store.get c).interfaces.Nodup
  unlinked : ∀ c ∉ s.settled, (s.store.get c).Unlinked
  linked : ∀ c ∈ s.settled, c ∉ P → templateName? (s.store.get c) = none → Linked env s c
  settled_nodup : s.settled.Nodup
  settled_filed : ∀ c ∈ s.settled, c ∈ s.filed

namespace Sound
variable {env : Env} {P : List ClassId} {s t : State} {i : ClassId}

theorem lt_size (h : Sound env P s) {c : ClassId} (hc : c ∈ s.filed) :
    c < s.store.classes.size := by
  have hlive := h.live c hc
  unfold ClassStore.isLive at hlive
  simpa using (Bool.and_eq_true_iff.mp hlive).1

/-- Nothing is linked before any class is settled. -/
theorem initial (h : Pending [] s) : Sound env [] s := by
  have hlt : ∀ c ∈ s.filed, c < s.store.classes.size := fun c hc =>
    h.lt_size (List.mem_append_right [] hc)
  have hsettled : ∀ c, c ∉ s.settled := fun c hc => by
    rw [h.settled] at hc
    exact absurd hc List.not_mem_nil
  refine ⟨fun c hc => ?_, fun c b hb => ?_, fun c => ?_, fun c _ => h.unlinked c,
    fun c hc => absurd hc (hsettled c), ?_, fun c hc => absurd hc (hsettled c)⟩
  · simp [ClassStore.isLive, hlt c hc, h.released]
  · rw [(h.unlinked c).base?] at hb
    cases hb
  · rw [(h.unlinked c).interfaces]
    exact List.nodup_nil
  · rw [h.settled]
    exact List.nodup_nil

/-- A class may begin to be resolved. -/
theorem mark (h : Sound env P s) (hi : i ∉ s.settled) (hfiled : i ∈ s.filed) :
    Sound env (i :: P) { s with settled := i :: s.settled } := by
  refine ⟨h.live, h.base, h.nodup, fun c hc => ?_, fun c hc hout hname => ?_,
    List.nodup_cons.mpr ⟨hi, h.settled_nodup⟩, fun c hc => ?_⟩
  · exact h.unlinked c fun hmem => hc (List.mem_cons_of_mem i hmem)
  · have hne : c ≠ i ∧ c ∉ P := by simpa using hout
    have hc : c ∈ s.settled := (List.mem_cons.mp hc).resolve_left hne.1
    exact (h.linked c hc hne.2 hname).settling (Settling.mark i s : Settling [] s _) rfl rfl
  · rcases List.mem_cons.mp hc with rfl | hc
    · exact hfiled
    · exact h.settled_filed c hc

/-- Classes that are being resolved may be linked further. -/
theorem link {active : List ClassId} (h : Sound env P s) (hs : Settling active s t)
    (hsettled : t.settled = s.settled) (hrejections : t.db.rejections = s.db.rejections)
    (hactive : ∀ c ∈ active, c ∈ P ∧ c ∈ s.settled ∧ (t.store.get c).interfaces.Nodup ∧
      ∀ b, (t.store.get c).base? = some b → (s.store.get b).isInterface = false) :
    Sound env P t := by
  have hties : ∀ c ∉ active, (t.store.get c).ties = (s.store.get c).ties := by
    intro c hc
    refine hs.kept c hc ?_
    rw [hsettled]
    exact Classical.em _
  refine ⟨fun c hc => ?_, fun c b hb => ?_, fun c => ?_, fun c hc => ?_, fun c hc hout hname => ?_,
    hsettled ▸ h.settled_nodup, fun c hc => ?_⟩
  · rw [hs.filed] at hc
    rw [hs.isLive]
    exact h.live c hc
  · rw [hs.isInterface]
    by_cases hc : c ∈ active
    · exact (hactive c hc).2.2.2 b hb
    · rw [BoundClass.base?_eq_of_ties (hties c hc)] at hb
      exact h.base c b hb
  · by_cases hc : c ∈ active
    · exact (hactive c hc).2.2.1
    · rw [BoundClass.interfaces_eq_of_ties (hties c hc)]
      exact h.nodup c
  · rw [hsettled] at hc
    have hout := hties c fun hmem => hc (hactive c hmem).2.1
    obtain ⟨hnone, htemplate, hinterfaces⟩ := h.unlinked c hc
    exact ⟨(BoundClass.base?_eq_of_ties hout).trans hnone,
      (BoundClass.templateBase?_eq_of_ties hout).trans htemplate,
      (BoundClass.interfaces_eq_of_ties hout).trans hinterfaces⟩
  · have hfree := hties c fun hmem => hout (hactive c hmem).1
    rw [hsettled] at hc
    rw [hs.templateName?] at hname
    exact (h.linked c hc hout hname).settling hs hrejections hfree
  · rw [hsettled] at hc
    rw [hs.filed]
    exact h.settled_filed c hc

theorem quiet (h : Sound env P s) (hq : Quiet s t)
    (hrejections : t.db.rejections = s.db.rejections) : Sound env P t :=
  h.link (Settling.of_quiet hq : Settling [] s t) (congrArg Filing.settled hq.filing) hrejections
    fun _ hc => absurd hc List.not_mem_nil

/-- A class is resolved once it is linked, if its names count. -/
theorem close (h : Sound env (i :: P) s)
    (hi : templateName? (s.store.get i) = none → Linked env s i) : Sound env P s := by
  refine ⟨h.live, h.base, h.nodup, h.unlinked, fun c hc hout hname => ?_, h.settled_nodup,
    h.settled_filed⟩
  by_cases hci : c = i
  · rw [hci] at hname ⊢
    exact hi hname
  · exact h.linked c hc (by simpa using ⟨hci, hout⟩) hname

end Sound

/-! ### Resolving is sound -/

section
variable {env : Env} {settle : ClassId → State → State} {P : List ClassId} {s : State}
  {i b : ClassId}

theorem warnOfBases_rejections : (warnOfBases env i s).db.rejections = s.db.rejections := by
  have hwarned : Evolves env.header s (warnOfBases env i s) :=
    ((Evolves.refl s).warnAll _).warnIf _ _
  exact hwarned.db.rejections

section
variable (hrejections : ∀ b s, (settle b s).db.rejections = s.db.rejections)
include hrejections

theorem linkEach_rejections (k? : Option Nat) (l : List (ClassId × Nat)) (s : State) :
    (linkEach settle i k? l s).db.rejections = s.db.rejections := by
  refine List.foldlRecOn (motive := fun t : State => t.db.rejections = s.db.rejections) l _ rfl
    fun t ht q _ => ?_
  refine Eq.trans ?_ ht
  show (if (t.store.get q.1).isNamespace then t else settle q.1 t).db.rejections = _
  split
  · rfl
  · exact hrejections q.1 t

theorem linkBases_rejections : (linkBases env settle i s).db.rejections = s.db.rejections :=
  (linkEach_rejections hrejections _ _ _).trans warnOfBases_rejections

/-- Resolving by names links what the names mean. -/
theorem linkBases_linked (hsettle : ∀ b s, Settling [] s (settle b s)) (hi : i ∈ s.settled)
    (hlt : i < s.store.classes.size) (hnone : (s.store.get i).base? = none) :
    Linked env (linkBases env settle i s) i := by
  have hs : Settling [i] s (linkBases env settle i s) := linkBases_settling hsettle env i s
  have hclass := findClass?_congr env hs.registry hs.templates hs.smartPointers
    fun b => (hs.gains b).head
  have hnames : ((linkBases env settle i s).store.get i).baseNames = (s.store.get i).baseNames :=
    congrArg ClassHead.baseNames (hs.gains i).head
  have hbases : (findBases env (linkBases env settle i s) i
      ((linkBases env settle i s).store.get i).baseNames).1 =
        (findBases env s i (s.store.get i).baseNames).1 := by
    rw [hnames, findBases_congr hclass (linkBases_rejections hrejections)]
  have hwarned : Settling [] s (warnOfBases env i s) := .of_quiet (warnOfBases_quiet env i s)
  have hfree : ((warnOfBases env i s).store.get i).base? = none :=
    (BoundClass.base?_eq_of_ties (hwarned.ties_of_settled hi)).trans hnone
  have hlinks := get_linkEach hsettle (hwarned.settled.subset hi) (hwarned.size ▸ hlt)
    (primary? s (findBases env s i (s.store.get i).baseNames).1)
    (findBases env s i (s.store.get i).baseNames).1.zipIdx
  rw [hfree, Option.none_or, find?_primary?] at hlinks
  obtain ⟨hbase, hothers⟩ := hlinks
  refine ⟨?_, fun b hb => ?_⟩
  · rw [hbases]
    simp only [hs.isInterface]
    unfold linkBases
    exact hbase
  · rw [hbases] at hb
    unfold linkBases
    rw [hbase]
    obtain ⟨k, hk⟩ := List.getElem?_of_mem hb
    have hmem : (b, k) ∈ (findBases env s i (s.store.get i).baseNames).1.zipIdx :=
      List.mem_zipIdx_iff_getElem?.mpr hk
    by_cases hprimary : primary? s (findBases env s i (s.store.get i).baseNames).1 = some k
    · exact .inl (getLast?_of_primary? hmem hprimary)
    · exact .inr (hothers _ hmem hprimary)

end

variable (hsettle : ∀ b s, Settling [] s (settle b s))
  (hsound : ∀ {P b s}, Sound env P s → b ∈ s.filed → Sound env P (settle b s))
include hsettle hsound

theorem linkBase_sound (h : Sound env P s) (hi : i ∈ P) (hi' : i ∈ s.settled) (hb : b ∈ s.filed)
    (primary : Bool) (hprimary : primary = true → (s.store.get b).isInterface = false) :
    Sound env P (linkBase settle i primary b s) := by
  unfold linkBase
  generalize hu : (if (s.store.get b).isNamespace then s else settle b s) = u
  have hresolved : Settling [] s u ∧ Sound env P u := by
    rw [← hu]
    split
    · exact ⟨.refl s, h⟩
    · exact ⟨hsettle b s, hsound h hb⟩
  obtain ⟨hsettling, hu⟩ := hresolved
  have hlt : i < u.store.classes.size := by
    rw [hsettling.size]
    exact h.lt_size (h.settled_filed i hi')
  refine hu.link (addBase_settling i primary b u) rfl rfl fun c hc => ?_
  obtain rfl := List.mem_singleton.mp hc
  refine ⟨hi, hsettling.settled.subset hi', ?_, fun b' hb' => ?_⟩
  · rw [get_addBase hlt]
    cases primary with
    | true => exact hu.nodup c
    | false => exact BoundClass.nodup_addInterfaces (BoundClass.nodup_addInterface (hu.nodup c))
  · rw [base?_addBase hlt] at hb'
    split at hb'
    · next hp =>
      rcases Option.or_eq_some_iff.mp hb' with hold | ⟨-, hnew⟩
      · exact hu.base c b' hold
      · obtain rfl := Option.some.inj hnew
        rw [hsettling.isInterface]
        exact hprimary hp
    · exact hu.base c b' hb'

theorem linkEach_sound (h : Sound env P s) (hi : i ∈ P) (hi' : i ∈ s.settled) {k? : Option Nat}
    {l : List (ClassId × Nat)} (hl : ∀ q ∈ l, q.1 ∈ s.filed ∧
      (k? = some q.2 → (s.store.get q.1).isInterface = false)) :
    Sound env P (linkEach settle i k? l s) := by
  induction l generalizing s with
  | nil => exact h
  | cons q l ih =>
    have hstep := linkBase_settling hsettle i (decide (k? = some q.2)) q.1 s
    obtain ⟨hmem, hprimary⟩ := hl q List.mem_cons_self
    have hlinked := linkBase_sound hsettle hsound h hi hi' hmem (decide (k? = some q.2))
      fun hk => hprimary (of_decide_eq_true hk)
    refine ih hlinked (hstep.settled.subset hi') fun r hr => ?_
    rw [hstep.filed, hstep.isInterface]
    exact hl r (List.mem_cons_of_mem q hr)

theorem linkBases_sound (h : Sound env P s) (hi : i ∈ P) (hi' : i ∈ s.settled) :
    Sound env P (linkBases env settle i s) := by
  have hquiet := warnOfBases_quiet env i s
  have hwarned : Settling [] s (warnOfBases env i s) := .of_quiet hquiet
  have hstart := h.quiet hquiet warnOfBases_rejections
  refine linkEach_sound hsettle hsound hstart hi (hwarned.settled.subset hi') fun q hq => ?_
  rw [hwarned.filed, hwarned.isInterface]
  exact ⟨mem_filed_of_mem_findBases (List.fst_mem_of_mem_zipIdx hq), isInterface_of_primary? hq⟩

omit hsettle hsound in
/-- Members are taken over before the links of the template are. -/
theorem get_inheritTemplate (hlt : i < s.store.classes.size) (env : Env) (t : ClassId)
    (written : TypeExpr) : (inheritTemplate env i t written s).store.get i =
      takeLinks (takeFields env i t written s).store t
        ((bindInstance i t written s).1.map (·.entry))
        ((takeFields env i t written s).store.get i) := by
  rw [inheritTemplate_eq]
  refine get_modifyClass_self ?_ _
  rw [(takeFields_quiet env i t written s).size]
  exact hlt

omit hsettle hsound in
theorem inheritTemplate_sound (h : Sound env P s) (hi : i ∈ P) (hi' : i ∈ s.settled) (t : ClassId)
    (written : TypeExpr) : Sound env P (inheritTemplate env i t written s) := by
  have hrejected := (inheritTemplate_evolves (h := env.header) env i t written s).db.rejections
  have hquiet := takeFields_quiet env i t written s
  have htaken : Settling [] s (takeFields env i t written s) := .of_quiet hquiet
  have hsettled : (inheritTemplate env i t written s).settled = s.settled := by
    rw [inheritTemplate_eq]
    exact congrArg Filing.settled hquiet.filing
  refine h.link (inheritTemplate_settling env i t written s) hsettled hrejected fun c hc => ?_
  obtain rfl := List.mem_singleton.mp hc
  rw [get_inheritTemplate (h.lt_size (h.settled_filed c hi'))]
  refine ⟨hi, hi', ?_, fun b hb => ?_⟩
  · rw [interfaces_takeLinks]
    refine BoundClass.nodup_addInterfaces ?_
    exact (BoundClass.interfaces_eq_of_ties (hquiet.ties c)).symm ▸ h.nodup c
  · rw [base?_takeLinks, BoundClass.base?_eq_of_ties (hquiet.ties c)] at hb
    rcases Option.or_eq_some_iff.mp hb with hb | ⟨-, hb⟩
    · exact h.base c b hb
    · have hbase := (Option.filter_eq_some_iff.mp hb).1
      rw [BoundClass.base?_eq_of_ties (hquiet.ties t)] at hbase
      exact h.base t b hbase

theorem resolveTemplateBase_sound (h : Sound env P s) (hi : i ∈ P) (hi' : i ∈ s.settled)
    (written : String) : Sound env P (resolveTemplateBase env settle i written s) := by
  have hquiet : ∀ ws, Quiet s (s.warnAll ws) := (Quiet.refl s).warnAll
  have hwarned : ∀ ws, Sound env P (s.warnAll ws) := fun ws =>
    h.quiet (hquiet ws) ((Evolves.refl (h := env.header) s).warnAll ws).db.rejections
  have hstart : ∀ ws, Settling [] s (s.warnAll ws) := fun ws => .of_quiet (hquiet ws)
  have hcontainer : ∀ {t : State} (e c : Entry), Sound env P t →
      Sound env P (t.modifyDatabase (·.setBaseContainer e c)) := fun {t} e c ht =>
    ht.quiet ((Quiet.refl t).modifyDatabase _)
      (Database.Step.setBaseContainer (h := env.header) e c).rejections
  unfold resolveTemplateBase
  dsimp only
  split
  · next t found hfound =>
    refine hcontainer _ _ (inheritTemplate_sound (hsound (hwarned _) ?_) hi ?_ t found)
    · rw [(hstart _).filed]
      exact mem_filed_of_searchTemplate hfound
    · exact (hsettle t _).settled.subset ((hstart _).settled.subset hi')
  · exact hcontainer _ _ (hwarned _)
  · refine (hwarned _).quiet ((Quiet.refl _).warn _) ?_
    exact ((Evolves.refl (h := env.header) _).warn _).db.rejections

theorem resolveBases_sound (hrejections : ∀ b s, (settle b s).db.rejections = s.db.rejections)
    (h : Sound env (i :: P) s) (hi : i ∈ s.settled) (hnone : (s.store.get i).base? = none) :
    Sound env P (resolveBases env settle i s) := by
  cases hname : templateName? (s.store.get i) with
  | none =>
    rw [resolveBases_of_names hname]
    refine (linkBases_sound hsettle hsound h List.mem_cons_self hi).close fun _ => ?_
    exact linkBases_linked hrejections hsettle hi (h.lt_size (h.settled_filed i hi)) hnone
  | some name =>
    rw [resolveBases_of_template hname]
    refine (resolveTemplateBase_sound hsettle hsound h List.mem_cons_self hi name).close
      fun hnot => ?_
    rw [(resolveTemplateBase_settling hsettle env i name s).templateName?, hname] at hnot
    cases hnot

end

theorem settleFrom_rejections (env : Env) (n : Nat) (i : ClassId) (s : State) :
    (settleFrom env n i s).db.rejections = s.db.rejections :=
  (settleFrom_evolves (h := env.header) env n i s).db.rejections

theorem settleFrom_sound {env : Env} {P : List ClassId} (n : Nat) {i : ClassId} {s : State}
    (h : Sound env P s) (hi : i ∈ s.filed) : Sound env P (settleFrom env n i s) := by
  induction n generalizing P i s with
  | zero => exact h
  | succ n ih =>
    unfold settleFrom
    split
    · exact h
    · next hnew =>
      exact resolveBases_sound (settleFrom_settling env n) ih (settleFrom_rejections env n)
        (h.mark hnew hi) List.mem_cons_self (h.unlinked i hnew).base?

theorem settleOne_sound {env : Env} {s : State} {i : ClassId} (h : Sound env [] s)
    (hi : i ∈ s.filed) : Sound env [] (settleOne env s i) := by
  unfold settleOne
  split
  · exact h
  · exact settleFrom_sound _ h hi

/-! ### Keeping a property of the classes -/

/-- A property of the classes that no step of resolving bases breaks. -/
structure Kept (env : Env) (I : State → Prop) : Prop where
  store : ∀ {s t : State}, I s → Evolves env.header s t → t.store = s.store →
    t.db.entries = s.db.entries → I t
  addBase : ∀ {s : State} (i : ClassId) (primary : Bool) (b : ClassId),
    I s → I (addBase i primary b s)
  inheritTemplate : ∀ {s : State} {i : ClassId} (t : ClassId) (written : TypeExpr),
    i < s.store.classes.size → (s.store.get i).templateBase? = none →
      Instantiates s.store i t written → I s → I (inheritTemplate env i t written s)

section
variable {env : Env} {I : State → Prop} (hI : Kept env I)
include hI

theorem Kept.warnAll {s : State} (h : I s) (ws : List Warning) : I (s.warnAll ws) :=
  hI.store h ((Evolves.refl s).warnAll ws) (State.store_warnAll s ws)
    (congrArg Database.entries (State.db_warnAll s ws))

section
variable {settle : ClassId → State → State} {P : List ClassId} {s : State} {i : ClassId}
  (hsettle : ∀ b s, Settling [] s (settle b s))
  (hsound : ∀ {P b s}, Sound env P s → b ∈ s.filed → Sound env P (settle b s))
  (hkeeps : ∀ {P b s}, Sound env P s → b ∈ s.filed → I s → I (settle b s))
include hsettle hsound hkeeps

theorem linkEach_keeps (h : Sound env P s) (hi : i ∈ P) (hi' : i ∈ s.settled) (hs : I s)
    {k? : Option Nat} {l : List (ClassId × Nat)}
    (hl : ∀ q ∈ l, q.1 ∈ s.filed ∧ (k? = some q.2 → (s.store.get q.1).isInterface = false)) :
    I (linkEach settle i k? l s) := by
  induction l generalizing s with
  | nil => exact hs
  | cons q l ih =>
    have hstep := linkBase_settling hsettle i (decide (k? = some q.2)) q.1 s
    obtain ⟨hmem, hprimary⟩ := hl q List.mem_cons_self
    have hlinked := linkBase_sound hsettle hsound h hi hi' hmem (decide (k? = some q.2))
      fun hk => hprimary (of_decide_eq_true hk)
    refine ih hlinked (hstep.settled.subset hi') ?_ fun r hr => ?_
    · refine hI.addBase i _ q.1 ?_
      split
      · exact hs
      · exact hkeeps h hmem hs
    · rw [hstep.filed, hstep.isInterface]
      exact hl r (List.mem_cons_of_mem q hr)

theorem linkBases_keeps (h : Sound env P s) (hi : i ∈ P) (hi' : i ∈ s.settled) (hs : I s) :
    I (linkBases env settle i s) := by
  have hquiet := warnOfBases_quiet env i s
  have hwarned : Settling [] s (warnOfBases env i s) := .of_quiet hquiet
  have hstart := h.quiet hquiet warnOfBases_rejections
  have hkept : I (warnOfBases env i s) := by
    unfold warnOfBases State.warnIf
    dsimp only
    split
    · exact hI.store (hI.warnAll hs _) ((Evolves.refl _).warn _) rfl rfl
    · exact hI.warnAll hs _
  refine linkEach_keeps hI hsettle hsound hkeeps hstart hi (hwarned.settled.subset hi') hkept
    fun q hq => ?_
  rw [hwarned.filed, hwarned.isInterface]
  exact ⟨mem_filed_of_mem_findBases (List.fst_mem_of_mem_zipIdx hq), isInterface_of_primary? hq⟩

omit hsound in
theorem resolveTemplateBase_keeps (h : Sound env P s) (hi : i ∈ s.settled) (hs : I s)
    (hnone : (s.store.get i).templateBase? = none) {written : String}
    (hname : templateName? (s.store.get i) = some written) :
    I (resolveTemplateBase env settle i written s) := by
  have hquiet : ∀ ws, Quiet s (s.warnAll ws) := (Quiet.refl s).warnAll
  have hstart : ∀ ws, Settling [] s (s.warnAll ws) := fun ws => .of_quiet (hquiet ws)
  have hcontainer : ∀ {t : State} (e c : Entry), I t →
      I (t.modifyDatabase (·.setBaseContainer e c)) := by
    intro t e c ht
    refine hI.store ht ((Evolves.refl t).modifyDatabase (.step (.setBaseContainer e c))) rfl ?_
    show (t.db.setBaseContainer e c).entries = _
    unfold Database.setBaseContainer
    split
    · exact (Database.modify_frame _ _ _).1
    · rfl
  unfold resolveTemplateBase
  dsimp only
  split
  · next t found hfound =>
    generalize (s.searchTemplate written _).warnings = ws
    have hsettling := (hstart ws).trans (hsettle t (s.warnAll ws))
    have hwarned : Sound env P (s.warnAll ws) :=
      h.quiet (hquiet ws) ((Evolves.refl (h := env.header) s).warnAll ws).db.rejections
    have hmem : t ∈ (s.warnAll ws).filed := by
      rw [(hstart ws).filed]
      exact mem_filed_of_searchTemplate hfound
    have hbase : Instantiates s.store i t found := by
      obtain ⟨hspelled, htemplate⟩ := spelling_of_searchTemplate hfound
      exact ⟨⟨written, hname, hspelled⟩, htemplate⟩
    refine hcontainer _ _ (hI.inheritTemplate t found ?_ ?_ ?_
      (hkeeps hwarned hmem (hI.warnAll hs ws)))
    · rw [hsettling.size]
      exact h.lt_size (h.settled_filed i hi)
    · exact (BoundClass.templateBase?_eq_of_ties (hsettling.ties_of_settled hi)).trans hnone
    · exact hbase.of_head fun b => (hsettling.gains b).head
  · exact hcontainer _ _ (hI.warnAll hs _)
  · generalize (s.searchTemplate written _).warnings = ws
    exact hI.store (hI.warnAll hs ws) ((Evolves.refl _).warn _) rfl rfl

theorem resolveBases_keeps (h : Sound env P s) (hi : i ∈ P) (hi' : i ∈ s.settled) (hs : I s)
    (hnone : (s.store.get i).templateBase? = none) : I (resolveBases env settle i s) := by
  cases hname : templateName? (s.store.get i) with
  | none =>
    rw [resolveBases_of_names hname]
    exact linkBases_keeps hI hsettle hsound hkeeps h hi hi' hs
  | some name =>
    rw [resolveBases_of_template hname]
    exact resolveTemplateBase_keeps hI hsettle hkeeps h hi' hs hnone hname

end

theorem settleFrom_keeps {P : List ClassId} (n : Nat) {i : ClassId} {s : State}
    (h : Sound env P s) (hi : i ∈ s.filed) (hs : I s) : I (settleFrom env n i s) := by
  induction n generalizing P i s with
  | zero => exact hs
  | succ n ih =>
    unfold settleFrom
    split
    · exact hs
    · next hnew =>
      exact resolveBases_keeps hI (settleFrom_settling env n)
        (fun hsound hb => settleFrom_sound n hsound hb) ih (h.mark hnew hi) List.mem_cons_self
        List.mem_cons_self (hI.store hs ((Evolves.refl s).aside rfl rfl rfl) rfl rfl)
        (h.unlinked i hnew).templateBase?

theorem settleOne_keeps {i : ClassId} {s : State} (h : Sound env [] s) (hi : i ∈ s.filed)
    (hs : I s) : I (settleOne env s i) := by
  unfold settleOne
  split
  · exact hs
  · exact settleFrom_keeps hI _ h hi hs

/-- What holds before any base is resolved, and what no step breaks, holds after all are. -/
theorem settleAll_keeps {s : State} (h : Sound env [] s) (hs : I s) : I (settleAll env s) := by
  rw [settleAll_eq]
  refine (List.foldlRecOn (motive := fun t : State => Settling [] s t ∧ Sound env [] t ∧ I t)
    s.registry.members _ ⟨.refl s, h, hs⟩ fun t ht i hi => ?_).2.2
  obtain ⟨hsettling, hsound, ht⟩ := ht
  have hfiled : i ∈ t.filed := by
    rw [hsettling.filed]
    exact List.mem_append_left _ (List.mem_append_left _ hi)
  exact ⟨hsettling.trans (settleOne_settling env t i), settleOne_sound hsound hfiled,
    settleOne_keeps hI hsound hfiled ht⟩

end

end Assembly
end BindingModel
