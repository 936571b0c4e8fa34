import BindingModel.Proofs.Assembly.Bases
import BindingModel.Proofs.Assembly.Shelves

/-! Interfaces are flattened over the hierarchy: a class has the interfaces of its interfaces, unless
classes are derived from themselves. -/
namespace BindingModel
open Api

/-- `x` is the primary base of `c` or one of its interfaces. -/
def Api.ClassStore.DerivesFrom (s : ClassStore) (c x : ClassId) : Prop := x ∈ s.bases c

namespace Assembly

theorem derivesFrom_iff {s : ClassStore} {c x : ClassId} : s.DerivesFrom c x ↔
    s.isLive x = true ∧ ((s.get c).base? = some x ∨ x ∈ (s.get c).interfaces) := by
  unfold ClassStore.DerivesFrom ClassStore.bases ClassStore.base? ClassStore.follow?
    ClassStore.interfaces
  rw [List.mem_append, Option.mem_toList, Option.filter_eq_some_iff,
    List.mem_filter]
  tauto

theorem mem_interfaces_iff {s : ClassStore} {c x : ClassId} :
    x ∈ s.interfaces c ↔ x ∈ (s.get c).interfaces ∧ s.isLive x = true := List.mem_filter

section
variable {active : List ClassId} {s t : State} (h : Settling active s t) {c x : ClassId}
include h

theorem Settling.mem_interfaces (hx : x ∈ s.store.interfaces c) : x ∈ t.store.interfaces c := by
  rw [mem_interfaces_iff] at hx ⊢
  rw [h.isLive]
  exact hx.imp_left fun hx => (h.gains c).interfaces hx

theorem Settling.derivesFrom (hx : s.store.DerivesFrom c x) : t.store.DerivesFrom c x := by
  rw [derivesFrom_iff] at hx ⊢
  rw [h.isLive]
  exact hx.imp_right fun hx => hx.imp ((h.gains c).base? x) fun hx => (h.gains c).interfaces hx

end

/-- The interfaces of a class that are no namespaces are resolved, bring all of theirs, and are not
among `P`, the classes being resolved. -/
def Closed (P : List ClassId) (s : State) : Prop :=
  ∀ c, ∀ j ∈ s.store.interfaces c, (s.store.get j).isNamespace = false →
    j ∈ s.settled ∧ j ∉ P ∧ s.store.interfaces j ⊆ s.store.interfaces c

/-- A class is derived from itself, or will be as soon as those of `P` are linked. -/
def Circular (P : List ClassId) (i : ClassId) (s : State) : Prop :=
  Cyclic s.store.DerivesFrom ∨ ∃ q ∈ P, Relation.TransGen s.store.DerivesFrom i q

namespace Circular
variable {P active : List ClassId} {i b : ClassId} {s t : State}

theorem settling (h : Circular P i s) (hs : Settling active s t) : Circular P i t :=
  h.imp (fun hc => hc.mono fun _ _ => hs.derivesFrom)
    fun ⟨q, hq, hpath⟩ => ⟨q, hq, Relation.TransGen.mono (fun _ _ => hs.derivesFrom) _ _ hpath⟩

theorem of_path {q : ClassId} (hq : q ∈ i :: P)
    (hpath : Relation.TransGen s.store.DerivesFrom i q) : Circular P i s := by
  rcases List.mem_cons.mp hq with rfl | hq
  · exact .inl ⟨q, hpath⟩
  · exact .inr ⟨q, hq, hpath⟩

/-- A circle through a base that is linked now. -/
theorem of_link (h : Circular (i :: P) b s) (hb : s.store.DerivesFrom i b) : Circular P i s := by
  rcases h with hcyclic | ⟨q, hq, hpath⟩
  · exact .inl hcyclic
  · exact of_path hq (.head hb hpath)

/-- A circle through a template, which is no base itself but hands on what it is derived from. -/
theorem of_template (h : Circular (i :: P) b s) (hs : Settling active s t)
    (hb : ∀ x, s.store.DerivesFrom b x → t.store.DerivesFrom i x) : Circular P i t := by
  rcases h with hcyclic | ⟨q, hq, hpath⟩
  · exact .inl (hcyclic.mono fun _ _ => hs.derivesFrom)
  · obtain ⟨x, hx, hrest⟩ := Relation.TransGen.head'_iff.mp hpath
    refine of_path hq (Relation.TransGen.head'_iff.mpr ⟨x, hb x hx, ?_⟩)
    exact Relation.ReflTransGen.mono (fun _ _ => hs.derivesFrom) _ _ hrest

end Circular

namespace Closed
variable {P : List ClassId} {s t : State}

/-- New interfaces of a class being resolved must be resolved themselves and bring all of theirs. -/
theorem link {active : List ClassId} (h : Closed P s) (hs : Settling active s t)
    (hsettled : t.settled = s.settled) (hactive : ∀ c ∈ active, c ∈ P ∧
      ∀ j ∈ t.store.interfaces c, j ∉ s.store.interfaces c →
        (s.store.get j).isNamespace = false →
          j ∈ s.settled ∧ j ∉ P ∧ s.store.interfaces j ⊆ t.store.interfaces c) : Closed P t := by
  have hothers : ∀ c ∉ active, t.store.interfaces c = s.store.interfaces c := by
    intro c hc
    have hties := hs.kept c hc (hsettled ▸ Classical.em _)
    unfold ClassStore.interfaces
    rw [BoundClass.interfaces_eq_of_ties hties, hs.isLive]
  intro c j hj hnamespace
  rw [hs.isNamespace] at hnamespace
  have hold : j ∈ s.settled ∧ j ∉ P ∧ s.store.interfaces j ⊆ t.store.interfaces c := by
    by_cases hc : c ∈ active
    · by_cases hjc : j ∈ s.store.interfaces c
      · obtain ⟨hmem, hout, hsub⟩ := h c j hjc hnamespace
        exact ⟨hmem, hout, fun x hx => hs.mem_interfaces (hsub hx)⟩
      · exact (hactive c hc).2 j hj hjc hnamespace
    · rw [hothers c hc] at hj ⊢
      exact h c j hj hnamespace
  obtain ⟨hmem, hout, hsub⟩ := hold
  rw [hsettled, hothers j fun hj => hout (hactive j hj).1]
  exact ⟨hmem, hout, hsub⟩

theorem quiet (h : Closed P s) (hq : Quiet s t) : Closed P t :=
  h.link (Settling.of_quiet hq : Settling [] s t) (congrArg Filing.settled hq.filing)
    fun _ hc => absurd hc List.not_mem_nil

theorem mark (h : Closed P s) {i : ClassId} (hi : i ∉ s.settled) :
    Closed (i :: P) { s with settled := i :: s.settled } := by
  intro c j hj hnamespace
  obtain ⟨hmem, hout, hall⟩ := h c j hj hnamespace
  have hji : j ≠ i := fun hji => hi (hji ▸ hmem)
  exact ⟨List.mem_cons_of_mem i hmem, by simpa using ⟨hji, hout⟩, hall⟩

theorem mono {Q : List ClassId} (h : Closed Q s) (hsub : P ⊆ Q) : Closed P s := by
  intro c j hj hnamespace
  obtain ⟨hmem, hout, hclosed⟩ := h c j hj hnamespace
  exact ⟨hmem, fun hj => hout (hsub hj), hclosed⟩

end Closed

/-! ### Resolving closes -/

/-- Deep enough for every class that is not settled yet. -/
def Fuelled (n : Nat) (s : State) : Prop := s.store.classes.size < n + s.settled.length

theorem Fuelled.settling {n : Nat} {active : List ClassId} {s t : State} (h : Fuelled n s)
    (hs : Settling active s t) : Fuelled n t := by
  have hlength := hs.settled.length_le
  unfold Fuelled at h ⊢
  rw [hs.size]
  omega

theorem Sound.not_fuelled {env : Env} {P : List ClassId} {s : State} (h : Sound env P s) :
    ¬ Fuelled 0 s := by
  have hsub : s.settled ⊆ List.range s.store.classes.size := fun c hc =>
    List.mem_range.mpr (h.lt_size (h.settled_filed c hc))
  have hlength := (h.settled_nodup.subperm hsub).length_le
  rw [List.length_range] at hlength
  unfold Fuelled
  omega

section
variable {P : List ClassId} {s : State} {i b : ClassId} {primary : Bool}
  (hlt : i < s.store.classes.size)
include hlt

theorem derivesFrom_addBase (hlive : s.store.isLive b = true)
    (hprimary : primary = true → (s.store.get i).base? = none) :
    (addBase i primary b s).store.DerivesFrom i b := by
  rw [derivesFrom_iff, (addBase_settling i primary b s).isLive, base?_addBase hlt,
    mem_interfaces_addBase hlt]
  refine ⟨hlive, ?_⟩
  cases primary with
  | true => exact .inl (by rw [if_pos rfl, hprimary rfl, Option.none_or])
  | false => exact .inr (.inl ⟨rfl, .inr rfl⟩)

theorem Closed.addBase (h : Closed P s) (hi : i ∈ P) (hb : b ∉ P)
    (hmem : (s.store.get b).isNamespace = false → b ∈ s.settled) :
    Closed P (addBase i primary b s) := by
  have hlink := addBase_settling i primary b s
  refine h.link hlink rfl fun c hc => ?_
  obtain rfl := List.mem_singleton.mp hc
  refine ⟨hi, fun j hj hnew hnamespace => ?_⟩
  obtain ⟨hj, hlive⟩ := mem_interfaces_iff.mp hj
  rw [hlink.isLive] at hlive
  rcases (mem_interfaces_addBase hlt).mp hj with ⟨hp, hj⟩ | hj
  · have hsub : s.store.interfaces b ⊆ (Assembly.addBase c primary b s).store.interfaces c := by
      intro x hx
      rw [mem_interfaces_iff, hlink.isLive]
      exact ⟨(mem_interfaces_addBase hlt).mpr (.inl ⟨hp, .inl hx⟩), (mem_interfaces_iff.mp hx).2⟩
    rcases hj with hj | rfl
    · obtain ⟨hsettled, hout, hall⟩ := h b j hj hnamespace
      exact ⟨hsettled, hout, fun x hx => hsub (hall hx)⟩
    · exact ⟨hmem hnamespace, hb, hsub⟩
  · exact absurd (mem_interfaces_iff.mpr ⟨hj, hlive⟩) hnew

end

section
variable {env : Env} {settle : ClassId → State → State} {n : Nat} {P : List ClassId} {s : State}
  {i b : ClassId} (hsettle : ∀ b s, Settling [] s (settle b s))
  (hclosed : ∀ {P b s}, Sound env P s → Closed P s → b ∈ s.filed → Fuelled n s →
    b ∈ (settle b s).settled ∧ (Closed P (settle b s) ∨ Circular P b (settle b s)))
include hsettle hclosed

theorem linkBase_closed (h : Sound env (i :: P) s) (hc : Closed (i :: P) s) (hi : i ∈ s.settled)
    (hb : b ∈ s.filed) (hn : Fuelled n s) {primary : Bool}
    (hprimary : primary = true → (s.store.get i).base? = none) :
    Closed (i :: P) (linkBase settle i primary b s) ∨
      Circular P i (linkBase settle i primary b s) := by
  unfold linkBase
  generalize hu : (if (s.store.get b).isNamespace then s else settle b s) = u
  have hresolved : Settling [] s u ∧ (Closed (i :: P) u ∨ Circular (i :: P) b u) ∧
      ((u.store.get b).isNamespace = false → b ∈ u.settled) := by
    rw [← hu]
    split
    · next hnamespace =>
      exact ⟨.refl s, .inl hc, fun hnot => Bool.noConfusion (hnamespace.symm.trans hnot)⟩
    · obtain ⟨hmem, hout⟩ := hclosed h hc hb hn
      exact ⟨hsettle b s, hout, fun _ => hmem⟩
  obtain ⟨hsettling, hresolved, hmem⟩ := hresolved
  have hlt : i < u.store.classes.size := by
    rw [hsettling.size]
    exact h.lt_size (h.settled_filed i hi)
  have hderives : (addBase i primary b u).store.DerivesFrom i b := by
    refine derivesFrom_addBase hlt (hsettling.isLive ▸ h.live b hb) ?_
    rw [BoundClass.base?_eq_of_ties (hsettling.ties_of_settled hi)]
    exact hprimary
  by_cases hactive : b ∈ i :: P
  · exact .inr (.of_path hactive (.single hderives))
  · rcases hresolved with hu | hu
    · exact .inl (hu.addBase hlt List.mem_cons_self hactive hmem)
    · exact .inr ((hu.settling (addBase_settling i primary b u)).of_link hderives)

variable (hsound : ∀ {P b s}, Sound env P s → b ∈ s.filed → Sound env P (settle b s))
include hsound

theorem linkEach_closed (h : Sound env (i :: P) s) (hc : Closed (i :: P) s ∨ Circular P i s)
    (hi : i ∈ s.settled) (hn : Fuelled n s) {k? : Option Nat} {l : List (ClassId × Nat)}
    (hl : ∀ q ∈ l, q.1 ∈ s.filed ∧ (k? = some q.2 → (s.store.get q.1).isInterface = false))
    (hnodup : (l.map (·.2)).Nodup)
    (hnone : (s.store.get i).base? = none ∨ ∀ q ∈ l, k? ≠ some q.2) :
    Closed (i :: P) (linkEach settle i k? l s) ∨ Circular P i (linkEach settle i k? l s) := by
  induction l generalizing s with
  | nil => exact hc
  | cons q l ih =>
    have hstep := linkBase_settling hsettle i (decide (k? = some q.2)) q.1 s
    obtain ⟨hfiled, hinterface⟩ := hl q List.mem_cons_self
    rw [List.map_cons, List.nodup_cons] at hnodup
    have hprimary : decide (k? = some q.2) = true → (s.store.get i).base? = none := fun hk =>
      hnone.resolve_right fun hne => hne q List.mem_cons_self (of_decide_eq_true hk)
    refine ih (linkBase_sound hsettle hsound h List.mem_cons_self hi hfiled _
      fun hk => hinterface (of_decide_eq_true hk)) ?_ (hstep.settled.subset hi) (hn.settling hstep)
      (fun r hr => ?_) hnodup.2 ?_
    · rcases hc with hc | hc
      · exact linkBase_closed hsettle hclosed h hc hi hfiled hn hprimary
      · exact .inr (hc.settling hstep)
    · rw [hstep.filed, hstep.isInterface]
      exact hl r (List.mem_cons_of_mem q hr)
    · by_cases hk : k? = some q.2
      · refine .inr fun r hr hkr => hnodup.1 ?_
        rw [Option.some.inj (hk.symm.trans hkr)]
        exact List.mem_map_of_mem hr
      · have hbase := (get_linkBase hsettle hi (h.lt_size (h.settled_filed i hi))
          (decide (k? = some q.2)) q.1).1
        rw [if_neg (by simpa using hk)] at hbase
        exact hnone.imp hbase.trans fun hne r hr => hne r (List.mem_cons_of_mem q hr)

theorem linkBases_closed (h : Sound env (i :: P) s) (hc : Closed (i :: P) s) (hi : i ∈ s.settled)
    (hn : Fuelled n s) (hnone : (s.store.get i).base? = none) :
    Closed (i :: P) (linkBases env settle i s) ∨ Circular P i (linkBases env settle i s) := by
  have hquiet := warnOfBases_quiet env i s
  have hwarned : Settling [] s (warnOfBases env i s) := .of_quiet hquiet
  have hstart := h.quiet hquiet warnOfBases_rejections
  refine linkEach_closed hsettle hclosed hsound hstart (.inl (hc.quiet hquiet))
    (hwarned.settled.subset hi) (hn.settling hwarned) (fun q hq => ?_) ?_ (.inl ?_)
  · rw [hwarned.filed, hwarned.isInterface]
    exact ⟨mem_filed_of_mem_findBases (List.fst_mem_of_mem_zipIdx hq), isInterface_of_primary? hq⟩
  · rw [List.zipIdx_map_snd]
    exact List.nodup_range'
  · exact (BoundClass.base?_eq_of_ties (hwarned.ties_of_settled hi)).trans hnone

end

/-! ### Instances -/

section
variable {P : List ClassId} {s : State} {i : ClassId} (hlt : i < s.store.classes.size) (env : Env)
  (t : ClassId) (written : TypeExpr)
include hlt

theorem mem_interfaces_inheritTemplate {j : ClassId} :
    j ∈ ((inheritTemplate env i t written s).store.get i).interfaces ↔
      j ∈ s.store.interfaces t ∨ j ∈ (s.store.get i).interfaces := by
  have hquiet := takeFields_quiet env i t written s
  have htaken : Settling [] s (takeFields env i t written s) := .of_quiet hquiet
  rw [get_inheritTemplate hlt, interfaces_takeLinks, BoundClass.mem_interfaces_addInterfaces,
    mem_interfaces_iff, mem_interfaces_iff, htaken.isLive,
    BoundClass.interfaces_eq_of_ties (hquiet.ties t)]
  show _ ∨ j ∈ ((takeFields env i t written s).store.get i).interfaces ↔ _
  rw [BoundClass.interfaces_eq_of_ties (hquiet.ties i)]

/-- An instance has the interfaces of its template, which may be one of those being resolved. -/
theorem Closed.inheritTemplate (h : Closed P s) (hi : i ∈ P) :
    Closed P (inheritTemplate env i t written s) := by
  have hs := inheritTemplate_settling env i t written s
  have hsettled : (Assembly.inheritTemplate env i t written s).settled = s.settled := by
    rw [inheritTemplate_eq]
    exact congrArg Filing.settled (takeFields_quiet env i t written s).filing
  refine h.link hs hsettled fun c hc => ?_
  obtain rfl := List.mem_singleton.mp hc
  refine ⟨hi, fun j hj hnew hnamespace => ?_⟩
  obtain ⟨hj, hlive⟩ := mem_interfaces_iff.mp hj
  rw [hs.isLive] at hlive
  rcases (mem_interfaces_inheritTemplate hlt env t written).mp hj with hj | hj
  · obtain ⟨hmem, hout, hall⟩ := h t j hj hnamespace
    refine ⟨hmem, hout, fun x hx => mem_interfaces_iff.mpr ⟨?_, ?_⟩⟩
    · exact (mem_interfaces_inheritTemplate hlt env t written).mpr (.inl (hall hx))
    · rw [hs.isLive]
      exact (mem_interfaces_iff.mp hx).2
  · exact absurd (mem_interfaces_iff.mpr ⟨hj, hlive⟩) hnew

/-- An instance without a base of its own is derived from what its template is derived from. -/
theorem derivesFrom_inheritTemplate (hnone : (s.store.get i).base? = none) {x : ClassId}
    (hx : s.store.DerivesFrom t x) :
    (inheritTemplate env i t written s).store.DerivesFrom i x := by
  have hquiet := takeFields_quiet env i t written s
  have htaken : Settling [] s (takeFields env i t written s) := .of_quiet hquiet
  obtain ⟨hlive, hx⟩ := derivesFrom_iff.mp hx
  rw [derivesFrom_iff, (inheritTemplate_settling env i t written s).isLive,
    mem_interfaces_inheritTemplate hlt]
  refine ⟨hlive, hx.imp (fun hbase => ?_) fun hmem => .inl (mem_interfaces_iff.mpr ⟨hmem, hlive⟩)⟩
  rw [get_inheritTemplate hlt, base?_takeLinks, BoundClass.base?_eq_of_ties (hquiet.ties i), hnone,
    Option.none_or]
  refine Option.filter_eq_some_iff.mpr ⟨?_, htaken.isLive ▸ hlive⟩
  rw [BoundClass.base?_eq_of_ties (hquiet.ties t)]
  exact hbase

end

/-! ### All classes -/

section
variable {env : Env} {settle : ClassId → State → State} {n : Nat} {P : List ClassId} {s : State}
  {i : ClassId} (hsettle : ∀ b s, Settling [] s (settle b s))
  (hclosed : ∀ {P b s}, Sound env P s → Closed P s → b ∈ s.filed → Fuelled n s →
    b ∈ (settle b s).settled ∧ (Closed P (settle b s) ∨ Circular P b (settle b s)))
include hsettle hclosed

theorem resolveTemplateBase_closed (h : Sound env (i :: P) s) (hc : Closed (i :: P) s)
    (hi : i ∈ s.settled) (hn : Fuelled n s) (hnone : (s.store.get i).base? = none)
    (written : String) :
    Closed (i :: P) (resolveTemplateBase env settle i written s) ∨
      Circular P i (resolveTemplateBase env settle i written s) := by
  have hquiet : ∀ ws, Quiet s (s.warnAll ws) := (Quiet.refl s).warnAll
  have hstart : ∀ ws, Settling [] s (s.warnAll ws) := fun ws => .of_quiet (hquiet ws)
  unfold resolveTemplateBase
  dsimp only
  split
  · next t found hfound =>
    generalize hws : (s.searchTemplate written _).warnings = ws
    have hsettling := (hstart ws).trans (hsettle t (s.warnAll ws))
    have hlt : i < (settle t (s.warnAll ws)).store.classes.size := by
      rw [hsettling.size]
      exact h.lt_size (h.settled_filed i hi)
    have hcontainer : ∀ u : State, Quiet u (u.modifyDatabase
        (·.setBaseContainer (s.store.get i).entry (u.store.get t).entry)) := fun u =>
      (Quiet.refl u).modifyDatabase _
    have hwarned : Sound env (i :: P) (s.warnAll ws) :=
      h.quiet (hquiet ws) ((Evolves.refl (h := env.header) s).warnAll ws).db.rejections
    have hmem : t ∈ (s.warnAll ws).filed := by
      rw [(hstart ws).filed]
      exact mem_filed_of_searchTemplate hfound
    obtain ⟨-, ht | ht⟩ := hclosed hwarned (hc.quiet (hquiet ws)) hmem (hn.settling (hstart ws))
    · exact .inl ((ht.inheritTemplate hlt env t found List.mem_cons_self).quiet (hcontainer _))
    · have hfree : ((settle t (s.warnAll ws)).store.get i).base? = none :=
        (BoundClass.base?_eq_of_ties (hsettling.ties_of_settled hi)).trans hnone
      have hinherit := inheritTemplate_settling env i t found (settle t (s.warnAll ws))
      refine .inr (Circular.settling ?_ (.of_quiet (hcontainer _) : Settling [] _ _))
      exact ht.of_template hinherit fun x => derivesFrom_inheritTemplate hlt env t found hfree
  · exact .inl ((hc.quiet (hquiet _)).quiet ((Quiet.refl _).modifyDatabase _))
  · exact .inl ((hc.quiet (hquiet _)).quiet ((Quiet.refl _).warn _))

theorem resolveBases_closed
    (hsound : ∀ {P b s}, Sound env P s → b ∈ s.filed → Sound env P (settle b s))
    (h : Sound env (i :: P) s) (hc : Closed (i :: P) s) (hi : i ∈ s.settled) (hn : Fuelled n s)
    (hnone : (s.store.get i).base? = none) :
    Closed (i :: P) (resolveBases env settle i s) ∨
      Circular P i (resolveBases env settle i s) := by
  cases hname : templateName? (s.store.get i) with
  | none =>
    rw [resolveBases_of_names hname]
    exact linkBases_closed hsettle hclosed hsound h hc hi hn hnone
  | some name =>
    rw [resolveBases_of_template hname]
    exact resolveTemplateBase_closed hsettle hclosed h hc hi hn hnone name

end

theorem mem_settled_settleFrom (env : Env) (n : Nat) (i : ClassId) (s : State) :
    i ∈ (settleFrom env (n + 1) i s).settled := by
  unfold settleFrom
  split
  · assumption
  · exact (resolveBases_settling (settleFrom_settling env n) env i _).settled.subset
      List.mem_cons_self

/-- Resolving a class keeps the hierarchy closed, unless there is a circle. The induction is on the
depth; what carries it is that `P` holds the classes being resolved, so that meeting one of them
closes a circle. -/
theorem settleFrom_closed {env : Env} {P : List ClassId} (n : Nat) {i : ClassId} {s : State}
    (h : Sound env P s) (hc : Closed P s) (hi : i ∈ s.filed) (hn : Fuelled n s) :
    i ∈ (settleFrom env n i s).settled ∧
      (Closed P (settleFrom env n i s) ∨ Circular P i (settleFrom env n i s)) := by
  induction n generalizing P i s with
  | zero => exact absurd hn h.not_fuelled
  | succ n ih =>
    refine ⟨mem_settled_settleFrom env n i s, ?_⟩
    unfold settleFrom
    split
    · exact .inl hc
    · next hnew =>
      have hdeep : Fuelled n { s with settled := i :: s.settled } := by
        unfold Fuelled at hn ⊢
        rw [List.length_cons]
        show s.store.classes.size < _
        omega
      have hresolved := resolveBases_closed (settleFrom_settling env n) ih
        (fun hs hb => settleFrom_sound n hs hb) (h.mark hnew hi) (hc.mark hnew)
        List.mem_cons_self hdeep (h.unlinked i hnew).base?
      exact hresolved.imp_left fun hclosed => hclosed.mono fun _ hq => List.mem_cons_of_mem i hq

theorem settleOne_closed {env : Env} {s : State} {i : ClassId} (h : Sound env [] s)
    (hc : Closed [] s ∨ Cyclic s.store.DerivesFrom) (hi : i ∈ s.filed) :
    Closed [] (settleOne env s i) ∨ Cyclic (settleOne env s i).store.DerivesFrom := by
  unfold settleOne
  split
  · exact hc
  · rcases hc with hc | hc
    · have hdeep : Fuelled (s.store.classes.size + 1) s := by
        unfold Fuelled
        omega
      refine (settleFrom_closed _ h hc hi hdeep).2.imp_right fun hcircle => ?_
      exact hcircle.resolve_right fun ⟨_, hq, _⟩ => absurd hq List.not_mem_nil
    · exact .inr (hc.mono fun _ _ => (settle_settling env i s).derivesFrom)

/-- Once all classes are resolved the hierarchy is closed, unless there is a circle. -/
theorem settleAll_closed {env : Env} {s : State} (h : Sound env [] s) (hc : Closed [] s) :
    Sound env [] (settleAll env s) ∧
      (Closed [] (settleAll env s) ∨ Cyclic (settleAll env s).store.DerivesFrom) := by
  rw [settleAll_eq]
  refine (List.foldlRecOn (motive := fun t : State => Settling [] s t ∧ Sound env [] t ∧
    (Closed [] t ∨ Cyclic t.store.DerivesFrom)) s.registry.members _ ⟨.refl s, h, .inl hc⟩
    fun t ht i hi => ?_).2
  obtain ⟨hsettling, hsound, hclosed⟩ := ht
  have hfiled : i ∈ t.filed := by
    rw [hsettling.filed]
    exact List.mem_append_left _ (List.mem_append_left _ hi)
  exact ⟨hsettling.trans (settleOne_settling env t i), settleOne_sound hsound hfiled,
    settleOne_closed hsound hclosed hfiled⟩

theorem mem_settled_settleOne {env : Env} {s : State} {c : ClassId}
    (hkind : (s.store.get c).isInterface = false) (hscope : (s.store.get c).isNamespace = false) :
    c ∈ (settleOne env s c).settled := by
  unfold settleOne
  rw [hkind, hscope]
  exact mem_settled_settleFrom env _ c _

/-- Every registered class is resolved, but interfaces and namespaces that are no base. -/
theorem mem_settled_settleAll {env : Env} {s : State} {c : ClassId}
    (hc : c ∈ s.registry.members) (hkind : (s.store.get c).isInterface = false)
    (hscope : (s.store.get c).isNamespace = false) : c ∈ (settleAll env s).settled := by
  obtain ⟨before, after, hmembers⟩ := List.append_of_mem hc
  rw [settleAll_eq, hmembers, List.foldl_append, List.foldl_cons]
  have hbefore : Settling [] s (before.foldl (settleOne env) s) :=
    .foldl (settleOne_settling env) before s
  have hafter : Settling [] (settleOne env (before.foldl (settleOne env) s) c)
      (after.foldl (settleOne env) _) := .foldl (settleOne_settling env) after _
  refine hafter.settled.subset (mem_settled_settleOne ?_ ?_)
  · rw [hbefore.isInterface, hkind]
  · rw [hbefore.isNamespace, hscope]

/-! ### The finished model -/

/-- What a class with resolved bases is derived from. -/
structure Resolved (env : Env) (s : State) (c : ClassId) : Prop where
  /-- No interface is the primary base. -/
  primary : ∀ b, s.store.base? c = some b → (s.store.get b).isInterface = false
  /-- No interface is listed twice. -/
  nodup : (s.store.interfaces c).Nodup
  /-- The interfaces of an interface are interfaces of the class, unless that interface is a
  namespace and was resolved itself, as a template. -/
  closed : ¬ Cyclic s.store.DerivesFrom → ∀ j ∈ s.store.interfaces c,
    (s.store.get j).isNamespace = false ∨ j ∉ s.settled →
      s.store.interfaces j ⊆ s.store.interfaces c
  /-- Unless the only base is an instance, the last base that is no interface is the primary one. -/
  last : templateName? (s.store.get c) = none →
    s.store.base? c = ((findBases env s c (s.store.get c).baseNames).1.filter fun b =>
      !(s.store.get b).isInterface).getLast?
  /-- Unless the only base is an instance, no base that has a name and is not excluded is lost. -/
  named : templateName? (s.store.get c) = none → ∀ n ∈ (s.store.get c).baseNames,
    s.db.rejection? .excludeClass n "" = none → ∀ b, s.findClass? env n (some c) = some b →
      s.store.base? c = some b ∨ b ∈ s.store.interfaces c

namespace Arranged
variable {env : Env} {s t : State} (h : Arranged s t)
include h

theorem isLive : t.store.isLive = s.store.isLive := by
  funext c
  unfold ClassStore.isLive
  rw [h.size, h.released]

theorem filed : t.filed = s.filed := (Stocked.of_arranged h).filed

theorem store_base? (c : ClassId) : t.store.base? c = s.store.base? c := by
  unfold ClassStore.base? ClassStore.follow?
  rw [h.isLive, h.base?]

theorem store_interfaces (c : ClassId) : t.store.interfaces c = s.store.interfaces c := by
  unfold ClassStore.interfaces
  rw [h.isLive, h.interfaces]

theorem derivesFrom : t.store.DerivesFrom = s.store.DerivesFrom := by
  funext c x
  unfold ClassStore.DerivesFrom ClassStore.bases
  rw [h.store_base?, h.store_interfaces]

theorem resolved {c : ClassId} (hrejections : t.db.rejections = s.db.rejections)
    (hc : Resolved env s c) : Resolved env t c := by
  have hentry : ∀ b, (t.store.get b).entry = (s.store.get b).entry := fun b =>
    BoundClass.entry_eq_of_head (h.head b)
  have hinterface : ∀ b, (t.store.get b).isInterface = (s.store.get b).isInterface := fun b => by
    unfold BoundClass.isInterface
    rw [hentry]
  have hnamespace : ∀ b, (t.store.get b).isNamespace = (s.store.get b).isNamespace := fun b => by
    unfold BoundClass.isNamespace
    rw [hentry]
  have hnames : (t.store.get c).baseNames = (s.store.get c).baseNames :=
    congrArg ClassHead.baseNames (h.head c)
  have htemplate : templateName? (t.store.get c) = templateName? (s.store.get c) := by
    unfold templateName?
    rw [hnames]
  have hclass : t.findClass? env = s.findClass? env :=
    findClass?_congr env (congrArg Filing.registry h.filing) (congrArg Filing.templates h.filing)
      (congrArg Filing.smartPointers h.filing) h.head
  refine ⟨fun b hb => ?_, ?_, fun hcyclic j hj hscope => ?_, fun hname => ?_,
    fun hname n hn hallowed b hb => ?_⟩
  · rw [h.store_base?] at hb
    rw [hinterface]
    exact hc.primary b hb
  · rw [h.store_interfaces]
    exact hc.nodup
  · rw [h.derivesFrom] at hcyclic
    rw [h.store_interfaces] at hj ⊢
    rw [h.store_interfaces]
    rw [hnamespace, h.settled] at hscope
    exact hc.closed hcyclic j hj hscope
  · rw [htemplate] at hname
    rw [h.store_base?, hnames, findBases_congr hclass hrejections]
    simp only [hinterface]
    exact hc.last hname
  · rw [htemplate] at hname
    rw [hnames] at hn
    rw [hclass] at hb
    rw [h.store_base?, h.store_interfaces]
    unfold Database.rejection? at hallowed
    rw [hrejections] at hallowed
    exact hc.named hname n hn hallowed b hb

end Arranged

theorem Sound.resolved {env : Env} {s : State} {c : ClassId} (h : Sound env [] s)
    (hclosed : Closed [] s ∨ Cyclic s.store.DerivesFrom) (hc : c ∈ s.settled) :
    Resolved env s c := by
  have hfiled : ∀ b ∈ (findBases env s c (s.store.get c).baseNames).1, s.store.isLive b = true :=
    fun b hb => h.live b (mem_filed_of_mem_findBases hb)
  have hlinked : templateName? (s.store.get c) = none → Linked env s c :=
    h.linked c hc List.not_mem_nil
  refine ⟨fun b hb => ?_, (h.nodup c).filter _, fun hcyclic j hj hscope => ?_, fun hname => ?_,
    fun hname n hn hallowed b hb => ?_⟩
  · exact h.base c b (Option.filter_eq_some_iff.mp hb).1
  · by_cases hresolved : j ∈ s.settled
    · have hscope := hscope.resolve_right fun hnot => hnot hresolved
      exact ((hclosed.resolve_right hcyclic) c j hj hscope).2.2
    · intro x hx
      rw [mem_interfaces_iff, (h.unlinked j hresolved).interfaces] at hx
      exact absurd hx.1 List.not_mem_nil
  · have hbase := (hlinked hname).base
    unfold ClassStore.base? ClassStore.follow?
    cases hlast : (s.store.get c).base? with
    | none => rw [← hbase, hlast, Option.filter_none]
    | some b =>
      rw [hlast] at hbase
      have hmem := (List.mem_filter.mp (List.mem_of_getLast? hbase.symm)).1
      rw [← hbase, Option.filter_some, if_pos (hfiled b hmem)]
  · have hbase := mem_findBases.mpr ⟨n, hn, hallowed, hb⟩
    have hlive := hfiled b hbase
    exact ((hlinked hname).interface b hbase).imp
      (fun hb => Option.filter_eq_some_iff.mpr ⟨hb, hlive⟩)
      fun hb => mem_interfaces_iff.mpr ⟨hb, hlive⟩

/-- The bases of every class of a finished model are resolved, whatever the order in which classes
are registered, and so are those of every further class that was a base: what such a class is
derived from is what its base names mean. -/
theorem bases_resolved {config : Config} {header : Header} {db : Database} {m : Model}
    (hm : (assemble config header db).result = .ok m) :
    ∃ classes s, run (.make config header) { db } = .ok classes s ∧ m = s.model classes ∧
      s.db.rejections = db.rejections ∧
      (∀ c ∈ m.classes, (m.store.get c).isNamespace = false → c ∈ s.settled) ∧
      ∀ c ∈ s.settled, Resolved (.make config header) s c := by
  obtain ⟨classes, s, hrun, rfl⟩ := assemble_eq_ok.mp hm
  obtain ⟨t, u, hdeclare, hfill, hquiet, harranged, -⟩ := run_arranged hrun
  have hdeclared := declareAll_adds (.make config header) { db } () t hdeclare
  have hpending := (hdeclared.pending (Pending.initial db)).quiet hquiet
  have hnone : Closed [] u := by
    intro c j hj
    rw [mem_interfaces_iff, (hpending.unlinked c).interfaces] at hj
    exact absurd hj.1 List.not_mem_nil
  have hinitial : Sound (.make config header) [] u := Sound.initial hpending
  obtain ⟨hsound, hclosed⟩ := settleAll_closed hinitial hnone
  have hrejections : s.db.rejections = db.rejections :=
    ((run_outcome (.make config header) { db }).of_ok hrun).db.rejections
  have hsettled : (settleAll (.make config header) u).db.rejections = db.rejections := by
    have hdeclared := (declareAll_outcome (.make config header) { db }).of_ok hdeclare
    have hfilled := hdeclared.trans ((fillAll_outcome (.make config header) t).of_ok hfill)
    exact (hfilled.trans (settleAll_evolves _ u)).db.rejections
  refine ⟨classes, s, hrun, rfl, hrejections, fun c hc hscope => ?_, fun c hc => ?_⟩
  · obtain ⟨hmember, hkind⟩ := ((run_ordered hrun).mem_iff c).mp hc
    have hstocked : Stocked u s :=
      (Stocked.of_settling (settleAll_settling _ u)).trans (.of_arranged harranged)
    have hentry : (s.store.get c).entry = (u.store.get c).entry := hstocked.entry c
    have hscope : (s.store.get c).isNamespace = false := hscope
    unfold BoundClass.isInterface at hkind
    unfold BoundClass.isNamespace at hscope
    rw [hentry] at hkind hscope
    rw [harranged.settled]
    exact mem_settled_settleAll (hstocked.registry ▸ hmember) hkind hscope
  · rw [harranged.settled] at hc
    exact harranged.resolved (hrejections.trans hsettled.symm) (hsound.resolved hclosed hc)

/-- No class is derived from itself where each comes before its bases, by some rank. -/
theorem not_cyclic_derivesFrom {s : ClassStore} (rank : ClassId → Nat)
    (h : ∀ c < s.classes.size, ∀ x ∈ s.bases c, rank c < rank x) :
    ¬ Cyclic s.DerivesFrom := by
  have hrank : ∀ c x, s.DerivesFrom c x → rank c < rank x := by
    intro c x hx
    by_cases hc : c < s.classes.size
    · exact h c hc x hx
    · have hnone : s.get c = default := by simp [ClassStore.get, hc]
      rw [derivesFrom_iff, hnone] at hx
      rcases hx.2 with hbase | hinterface
      · cases hbase
      · cases hinterface
  rintro ⟨c, hc⟩
  have hlift : Relation.TransGen (· < ·) (rank c) (rank c) :=
    Relation.TransGen.lift rank hrank c c hc
  rw [Relation.transGen_eq_self] at hlift
  exact lt_irrefl _ hlift

/-- A class before its bases, the later one of which is an interface with an interface. -/
def circleHeader : Header where
  global.classes := [
    { decls := { name := "Circle" }, bases := [{ name := "Shape" }, { name := "Drawable" }] },
    { decls := { name := "Shape" } },
    { decls := { name := "Drawable" }, bases := [{ name := "Named" }] },
    { decls := { name := "Named" } }]

def circleRules : Database :=
  let (_, db) := Database.initial.add "Circle" (.complex .object {})
  let (_, db) := db.add "Shape" (.complex .object {})
  let (_, db) := db.add "Drawable" (.complex .interface {})
  (db.add "Named" (.complex .interface {})).2

theorem bases_resolved_circle :
    ∃ m, (assemble {} circleHeader circleRules).result = .ok m ∧
      3 ∈ m.store.interfaces 2 ∧ m.store.interfaces 2 ⊆ m.store.interfaces 0 := by
  obtain ⟨m, hm, hfacts⟩ := exists_model_of_any (p := fun m =>
    decide (∀ c < m.store.classes.size, ∀ x ∈ m.store.bases c, c < x) && m.classes.contains 0 &&
    !(m.store.get 0).isNamespace && !(m.store.get 2).isNamespace &&
    (m.store.interfaces 0).contains 2 && (m.store.interfaces 2).contains 3)
    (show (assemble {} circleHeader circleRules).result.toOption.any _ = true by decide +kernel)
  simp only [Bool.and_eq_true, decide_eq_true_eq, List.contains_iff_mem, Bool.not_eq_true']
    at hfacts
  obtain ⟨⟨⟨⟨⟨hbelow, hclass⟩, hscope⟩, hscope'⟩, hinterface⟩, hnamed⟩ := hfacts
  obtain ⟨classes, s, -, rfl, -, hsettled, hresolved⟩ := bases_resolved hm
  have hacyclic := not_cyclic_derivesFrom id hbelow
  refine ⟨_, hm, hnamed, ?_⟩
  exact (hresolved 0 (hsettled 0 hclass hscope)).closed hacyclic 2 hinterface (.inl hscope')

/-- A namespace with a base, which is a base itself and is then taken for a template. -/
def scopeHeader : Header where
  global.classes := [
    { decls := { name := "Named" } },
    { decls := { name := "Scope" }, bases := [{ name := "Named" }] },
    { decls := { name := "Shape" } },
    { decls := { name := "Circle" }, bases := [{ name := "Scope" }, { name := "Shape" }] },
    { decls := { name := "Square" }, bases := [{ name := "Scope<int>" }] }]

def scopeRules : Database :=
  let (_, db) := Database.initial.add "int" .primitive
  let (_, db) := db.add "Named" (.complex .interface {})
  let (_, db) := db.add "Scope" (.complex .namespaceScope {})
  let (_, db) := db.add "Shape" (.complex .object {})
  let (_, db) := db.add "Circle" (.complex .object {})
  (db.add "Square" (.complex .object {})).2

/-- The interfaces of a namespace are not those of a class derived from it: as a base a namespace
is not resolved, as a template it is. -/
theorem namespace_interfaces_missing :
    ∃ m, (assemble {} scopeHeader scopeRules).result = .ok m ∧ ¬ Cyclic m.store.DerivesFrom ∧
      3 ∈ m.classes ∧ (m.store.get 3).isNamespace = false ∧ 1 ∈ m.store.interfaces 3 ∧
      ¬ m.store.interfaces 1 ⊆ m.store.interfaces 3 := by
  obtain ⟨m, hm, hfacts⟩ := exists_model_of_any (p := fun m =>
    decide (∀ c < m.store.classes.size, ∀ x ∈ m.store.bases c, 5 - c < 5 - x) &&
    m.classes.contains 3 && !(m.store.get 3).isNamespace && (m.store.interfaces 3).contains 1 &&
    (m.store.interfaces 1).contains 0 && !(m.store.interfaces 3).contains 0)
    (show (assemble {} scopeHeader scopeRules).result.toOption.any _ = true by decide +kernel)
  simp only [Bool.and_eq_true, decide_eq_true_eq, List.contains_iff_mem, Bool.not_eq_true']
    at hfacts
  obtain ⟨⟨⟨⟨⟨habove, hclass⟩, hscope⟩, hinterface⟩, hnamed⟩, hmissing⟩ := hfacts
  refine ⟨m, hm, not_cyclic_derivesFrom (5 - ·) habove, hclass, hscope, hinterface,
    fun hsub => ?_⟩
  rw [List.contains_iff_mem.mpr (hsub hnamed)] at hmissing
  cases hmissing

end Assembly
end BindingModel
