import Mathlib.Data.Finset.Card
import Mathlib.Data.List.Perm.Subperm
import BindingModel.Proofs.Assembly.Hierarchy

/-! Resolving bases comes to an end, whatever the base names, and resolves no class twice. -/
namespace BindingModel.Assembly
open Api

/-! ### Resolving without a bound -/

/-- What there is to do while bases are resolved. -/
inductive Task
  /-- Resolve the bases of a class, unless that has begun. -/
  | settle (i : ClassId)
  /-- Resolve the bases of a class that has just begun. -/
  | resolve (i : ClassId)
  /-- Make classes bases, each with its position; the one at the position `k?` is the primary one. -/
  | link (i : ClassId) (k? : Option Nat) (l : List (ClassId × Nat))
  /-- Resolve the bases of classes but interfaces and namespaces. -/
  | sweep (l : List ClassId)

/-- What is recorded of a run. -/
inductive Event
  /-- The bases of a class begin to be resolved. -/
  | begun (i : ClassId)
  /-- A class takes over the members of a template. -/
  | copied (i t : ClassId)

/-- The template that the only base of a class means. -/
def searchBase (s : State) (i : ClassId) (name : String) : TemplateSearch :=
  s.searchTemplate name (State.templateNames (s.store.get i).qualifiedName name)

/-- Resolving bases with no bound on the depth. -/
inductive Runs (env : Env) : Task → State → List Event → State → Prop
  | again {i : ClassId} {s : State} (hold : i ∈ s.settled) : Runs env (.settle i) s [] s
  | first {i : ClassId} {s t : State} {es : List Event} (hnew : i ∉ s.settled)
      (hbases : Runs env (.resolve i) { s with settled := i :: s.settled } es t) :
      Runs env (.settle i) s (.begun i :: es) t
  | names {i : ClassId} {s t : State} {es : List Event} {bases : List ClassId}
      (hname : templateName? (s.store.get i) = none)
      (hfound : (findBases env s i (s.store.get i).baseNames).1 = bases)
      (hlinks : Runs env (.link i (primary? s bases) bases.zipIdx) (warnOfBases env i s) es t) :
      Runs env (.resolve i) s es t
  | template {i x : ClassId} {s t u : State} {es : List Event} {name : String}
      {written : TypeExpr} (hname : templateName? (s.store.get i) = some name)
      (hfound : (searchBase s i name).found? = some (x, written))
      (hbases : Runs env (.settle x) (s.warnAll (searchBase s i name).warnings) es t)
      (hmembers : inheritTemplate env i x written t = u) :
      Runs env (.resolve i) s (es ++ [.copied i x])
        (u.modifyDatabase (·.setBaseContainer (s.store.get i).entry (u.store.get x).entry))
  /-- Without a template no other class is resolved. -/
  | untaken {i : ClassId} {s : State} {name : String}
      (hname : templateName? (s.store.get i) = some name)
      (hnone : (searchBase s i name).found? = none) :
      Runs env (.resolve i) s [] (resolveTemplateBase env (fun _ t => t) i name s)
  | linked {i : ClassId} {k? : Option Nat} {s : State} : Runs env (.link i k? []) s [] s
  | scope {i : ClassId} {k? : Option Nat} {q : ClassId × Nat} {l : List (ClassId × Nat)}
      {s t : State} {es : List Event} (hscope : (s.store.get q.1).isNamespace = true)
      (hrest : Runs env (.link i k? l) (addBase i (decide (k? = some q.2)) q.1 s) es t) :
      Runs env (.link i k? (q :: l)) s es t
  | base {i : ClassId} {k? : Option Nat} {q : ClassId × Nat} {l : List (ClassId × Nat)}
      {s t u : State} {es es' : List Event} (hscope : (s.store.get q.1).isNamespace = false)
      (hbase : Runs env (.settle q.1) s es u)
      (hrest : Runs env (.link i k? l) (addBase i (decide (k? = some q.2)) q.1 u) es' t) :
      Runs env (.link i k? (q :: l)) s (es ++ es') t
  | swept {s : State} : Runs env (.sweep []) s [] s
  | passed {i : ClassId} {l : List ClassId} {s t : State} {es : List Event}
      (hkind : ((s.store.get i).isInterface || (s.store.get i).isNamespace) = true)
      (hrest : Runs env (.sweep l) s es t) : Runs env (.sweep (i :: l)) s es t
  | visited {i : ClassId} {l : List ClassId} {s t u : State} {es es' : List Event}
      (hkind : ((s.store.get i).isInterface || (s.store.get i).isNamespace) = false)
      (hvisit : Runs env (.settle i) s es u) (hrest : Runs env (.sweep l) u es' t) :
      Runs env (.sweep (i :: l)) s (es ++ es') t

theorem Runs.unique {env : Env} {w : Task} {s t t' : State} {es es' : List Event}
    (h : Runs env w s es t) (h' : Runs env w s es' t') : es' = es ∧ t' = t := by
  induction h generalizing es' t' with
  | again hold =>
    cases h' with
    | again => exact ⟨rfl, rfl⟩
    | first hnew => exact absurd hold hnew
  | first hnew hbases ih =>
    cases h' with
    | again hold => exact absurd hold hnew
    | first _ hbases' =>
      obtain ⟨rfl, rfl⟩ := ih hbases'
      exact ⟨rfl, rfl⟩
  | names hname hfound hlinks ih =>
    cases h' with
    | names _ hfound' hlinks' =>
      obtain rfl := hfound.symm.trans hfound'
      exact ih hlinks'
    | template hname' | untaken hname' => cases hname.symm.trans hname'
  | template hname hfound hbases hmembers ih =>
    cases h' with
    | names hname' => cases hname.symm.trans hname'
    | template hname' hfound' hbases' hmembers' =>
      cases hname.symm.trans hname'
      cases hfound.symm.trans hfound'
      obtain ⟨rfl, rfl⟩ := ih hbases'
      obtain rfl := hmembers.symm.trans hmembers'
      exact ⟨rfl, rfl⟩
    | untaken hname' hnone =>
      cases hname.symm.trans hname'
      cases hfound.symm.trans hnone
  | untaken hname hnone =>
    cases h' with
    | names hname' => cases hname.symm.trans hname'
    | template hname' hfound =>
      cases hname.symm.trans hname'
      cases hnone.symm.trans hfound
    | untaken hname' =>
      cases hname.symm.trans hname'
      exact ⟨rfl, rfl⟩
  | linked =>
    cases h'
    exact ⟨rfl, rfl⟩
  | scope hscope hrest ih =>
    cases h' with
    | scope _ hrest' => exact ih hrest'
    | base hscope' => cases hscope.symm.trans hscope'
  | base hscope hbase hrest ihbase ihrest =>
    cases h' with
    | scope hscope' => cases hscope.symm.trans hscope'
    | base _ hbase' hrest' =>
      obtain ⟨rfl, rfl⟩ := ihbase hbase'
      obtain ⟨rfl, rfl⟩ := ihrest hrest'
      exact ⟨rfl, rfl⟩
  | swept =>
    cases h'
    exact ⟨rfl, rfl⟩
  | passed hkind hrest ih =>
    cases h' with
    | passed _ hrest' => exact ih hrest'
    | visited hkind' => cases hkind.symm.trans hkind'
  | visited hkind hvisit hrest ihvisit ihrest =>
    cases h' with
    | passed hkind' => cases hkind.symm.trans hkind'
    | visited _ hvisit' hrest' =>
      obtain ⟨rfl, rfl⟩ := ihvisit hvisit'
      obtain ⟨rfl, rfl⟩ := ihrest hrest'
      exact ⟨rfl, rfl⟩

/-! ### The bound suffices -/

/-- The classes whose bases have not begun to be resolved. -/
def unsettled (s : State) : Finset ClassId :=
  Finset.range s.store.classes.size \ s.settled.toFinset

theorem Settling.unsettled_subset {active : List ClassId} {s t : State} (h : Settling active s t) :
    unsettled t ⊆ unsettled s := by
  unfold unsettled
  rw [h.size]
  refine Finset.sdiff_subset_sdiff (Finset.Subset.refl _) fun i hi => ?_
  rw [List.mem_toFinset] at hi ⊢
  exact h.settled.subset hi

theorem Settling.card_unsettled_le {active : List ClassId} {s t : State}
    (h : Settling active s t) : (unsettled t).card ≤ (unsettled s).card :=
  Finset.card_le_card h.unsettled_subset

theorem card_unsettled_mark {i : ClassId} {s : State} (hi : i < s.store.classes.size)
    (hnew : i ∉ s.settled) :
    (unsettled { s with settled := i :: s.settled }).card < (unsettled s).card := by
  have hmark : Settling [] s { s with settled := i :: s.settled } := .mark i s
  refine Finset.card_lt_card (Finset.ssubset_iff_of_subset hmark.unsettled_subset |>.mpr ⟨i, ?_, ?_⟩)
  · simp [unsettled, hi, hnew]
  · simp [unsettled]

section
variable {env : Env} {settle : ClassId → State → State} {n : Nat} {s : State}
  (hsettle : ∀ b s, Settling [] s (settle b s))
  (hruns : ∀ b s, (unsettled s).card < n → ∃ es, Runs env (.settle b) s es (settle b s))
include hsettle hruns

theorem linkEach_runs (i : ClassId) (k? : Option Nat) (l : List (ClassId × Nat))
    (hn : (unsettled s).card < n) :
    ∃ es, Runs env (.link i k? l) s es (linkEach settle i k? l s) := by
  induction l generalizing s with
  | nil => exact ⟨[], .linked⟩
  | cons q l ih =>
    have hstep := linkBase_settling hsettle i (decide (k? = some q.2)) q.1 s
    obtain ⟨es', hrest⟩ := ih (hstep.card_unsettled_le.trans_lt hn)
    have hlink : linkEach settle i k? (q :: l) s =
        linkEach settle i k? l (linkBase settle i (decide (k? = some q.2)) q.1 s) := rfl
    rw [hlink]
    unfold linkBase at hrest ⊢
    cases hscope : (s.store.get q.1).isNamespace with
    | true =>
      rw [hscope, if_pos rfl] at hrest
      rw [if_pos rfl]
      exact ⟨es', .scope hscope hrest⟩
    | false =>
      rw [hscope, if_neg Bool.false_ne_true] at hrest
      rw [if_neg Bool.false_ne_true]
      obtain ⟨es, hbase⟩ := hruns q.1 s hn
      exact ⟨es ++ es', .base hscope hbase hrest⟩

theorem resolveBases_runs (i : ClassId) (hn : (unsettled s).card < n) :
    ∃ es, Runs env (.resolve i) s es (resolveBases env settle i s) := by
  cases hname : templateName? (s.store.get i) with
  | none =>
    have hwarned : Settling [] s (warnOfBases env i s) := .of_quiet (warnOfBases_quiet env i s)
    rw [resolveBases_of_names hname]
    obtain ⟨es, hlinks⟩ := linkEach_runs hsettle hruns i _ _ (hwarned.card_unsettled_le.trans_lt hn)
    exact ⟨es, .names hname rfl hlinks⟩
  | some name =>
    rw [resolveBases_of_template hname]
    cases hfound : (searchBase s i name).found? with
    | none =>
      have hsame : resolveTemplateBase env settle i name s =
          resolveTemplateBase env (fun _ t => t) i name s := by
        unfold searchBase at hfound
        unfold resolveTemplateBase
        dsimp only
        rw [hfound]
        cases (s.searchTemplate name _).container? <;> rfl
      rw [hsame]
      exact ⟨[], .untaken hname hfound⟩
    | some p =>
      obtain ⟨x, written⟩ := p
      have hwarned : Settling [] s (s.warnAll (searchBase s i name).warnings) :=
        .of_quiet ((Quiet.refl s).warnAll _)
      obtain ⟨es, hbases⟩ := hruns x _ (hwarned.card_unsettled_le.trans_lt hn)
      refine ⟨es ++ [.copied i x], ?_⟩
      have hresult := Runs.template hname hfound hbases rfl
      unfold searchBase at hfound hresult
      unfold resolveTemplateBase
      dsimp only
      rw [hfound]
      exact hresult

end

/-- A class that does not exist has no bases. -/
theorem resolveBases_runs_of_size_le {i : ClassId} {s : State} (env : Env)
    (settle : ClassId → State → State) (hi : s.store.classes.size ≤ i) :
    ∃ es, Runs env (.resolve i) s es (resolveBases env settle i s) := by
  have hnone : s.store.get i = default := by simp [ClassStore.get, hi]
  have hname : templateName? (s.store.get i) = none := by
    rw [hnone]
    rfl
  have hbases : (findBases env s i (s.store.get i).baseNames).1 = [] := by
    rw [hnone]
    rfl
  rw [resolveBases_of_names hname]
  unfold linkBases
  dsimp only
  rw [hbases]
  exact ⟨[], .names hname hbases .linked⟩

/-- The induction is on the bound: every class that begins to be resolved is one less that has not
begun. -/
theorem settleFrom_runs {env : Env} {n : Nat} {i : ClassId} {s : State}
    (hn : (unsettled s).card < n) : ∃ es, Runs env (.settle i) s es (settleFrom env n i s) := by
  induction n generalizing i s with
  | zero => omega
  | succ n ih =>
    unfold settleFrom
    split
    · next hold => exact ⟨[], .again hold⟩
    · next hnew =>
      by_cases hi : i < s.store.classes.size
      · have hless := card_unsettled_mark hi hnew
        obtain ⟨es, hbases⟩ := resolveBases_runs (settleFrom_settling env n) (fun _ _ => ih) i
          (show (unsettled { s with settled := i :: s.settled }).card < n by omega)
        exact ⟨.begun i :: es, .first hnew hbases⟩
      · obtain ⟨es, hbases⟩ := resolveBases_runs_of_size_le
          (s := { s with settled := i :: s.settled }) env (settleFrom env n) (Nat.le_of_not_lt hi)
        exact ⟨.begun i :: es, .first hnew hbases⟩

theorem settle_runs (env : Env) (i : ClassId) (s : State) :
    ∃ es, Runs env (.settle i) s es (settle env i s) := by
  refine settleFrom_runs ?_
  have hle : (unsettled s).card ≤ s.store.classes.size :=
    (Finset.card_le_card Finset.sdiff_subset).trans (Finset.card_range _).le
  omega

theorem sweep_runs (env : Env) (l : List ClassId) (s : State) :
    ∃ es, Runs env (.sweep l) s es (l.foldl (settleOne env) s) := by
  induction l generalizing s with
  | nil => exact ⟨[], .swept⟩
  | cons i l ih =>
    obtain ⟨es', hrest⟩ := ih (settleOne env s i)
    rw [List.foldl_cons]
    unfold settleOne at hrest ⊢
    cases hkind : (s.store.get i).isInterface || (s.store.get i).isNamespace with
    | true =>
      rw [hkind, if_pos rfl] at hrest
      rw [if_pos rfl]
      exact ⟨es', .passed hkind hrest⟩
    | false =>
      rw [hkind, if_neg Bool.false_ne_true] at hrest
      rw [if_neg Bool.false_ne_true]
      obtain ⟨es, hvisit⟩ := settle_runs env i s
      exact ⟨es ++ es', .visited hkind hvisit hrest⟩

/-! ### What a run records -/

/-- The classes that begin to be resolved, in order. -/
def begun (es : List Event) : List ClassId :=
  es.filterMap fun e => match e with
    | .begun i => some i
    | .copied .. => none

/-- The classes that take over the members of a template, in order. -/
def receivers (es : List Event) : List ClassId :=
  es.filterMap fun e => match e with
    | .begun _ => none
    | .copied i _ => some i

section
variable {es es' : List Event} {i t : ClassId}

theorem begun_cons : begun (.begun i :: es) = i :: begun es := rfl

theorem begun_append : begun (es ++ es') = begun es ++ begun es' := List.filterMap_append

theorem begun_copied : begun (es ++ [.copied i t]) = begun es := by
  rw [begun_append]
  exact List.append_nil _

theorem receivers_append : receivers (es ++ es') = receivers es ++ receivers es' :=
  List.filterMap_append

end

theorem settled_warnOfBases (env : Env) (i : ClassId) (s : State) :
    (warnOfBases env i s).settled = s.settled :=
  congrArg Filing.settled (warnOfBases_quiet env i s).filing

theorem settled_warnAll (s : State) (ws : List Warning) : (s.warnAll ws).settled = s.settled :=
  congrArg Filing.settled ((Quiet.refl s).warnAll ws).filing

theorem settled_inheritTemplate (env : Env) (i t : ClassId) (written : TypeExpr) (s : State) :
    (inheritTemplate env i t written s).settled = s.settled := by
  rw [inheritTemplate_eq]
  exact congrArg Filing.settled (takeFields_quiet env i t written s).filing

theorem settled_resolveTemplateBase {i : ClassId} {s : State} {name : String} (env : Env)
    (hnone : (searchBase s i name).found? = none) :
    (resolveTemplateBase env (fun _ t => t) i name s).settled = s.settled := by
  unfold searchBase at hnone
  unfold resolveTemplateBase
  dsimp only
  generalize s.searchTemplate name _ = r at hnone ⊢
  have hwarned := settled_warnAll s r.warnings
  split
  · next hfound => cases hnone.symm.trans hfound
  · exact hwarned
  · exact hwarned

/-- Settled are the classes that began to be resolved. -/
theorem Runs.settled {env : Env} {w : Task} {s t : State} {es : List Event}
    (h : Runs env w s es t) : t.settled = (begun es).reverse ++ s.settled := by
  induction h with
  | again | linked | swept => rfl
  | first _ _ ih =>
    rw [ih, begun_cons, List.reverse_cons, List.append_assoc]
    rfl
  | names _ _ _ ih => rw [ih, settled_warnOfBases]
  | @template i x s t u _ _ _ _ _ _ hmembers ih =>
    show u.settled = _
    rw [← hmembers, settled_inheritTemplate, ih, settled_warnAll, begun_copied]
  | untaken _ hnone =>
    rw [settled_resolveTemplateBase env hnone]
    rfl
  | scope _ _ ih => exact ih
  | @base i _ q _ _ _ u _ _ _ _ _ ihbase ihrest =>
    have hlinked : ∀ primary, (addBase i primary q.1 u).settled = u.settled := fun _ => rfl
    rw [ihrest, hlinked, ihbase, begun_append, List.reverse_append, List.append_assoc]
  | passed _ _ ih => exact ih
  | visited _ _ _ ihvisit ihrest =>
    rw [ihrest, ihvisit, begun_append, List.reverse_append, List.append_assoc]

/-- Classes begin to be resolved once, and none of them began before. -/
structure BegunOnce (s : State) (es : List Event) : Prop where
  nodup : (begun es).Nodup
  new : ∀ i ∈ begun es, i ∉ s.settled

namespace BegunOnce
variable {s u : State} {es es' : List Event} {i : ClassId}

theorem of_nil (h : begun es = []) : BegunOnce s es := by
  refine ⟨?_, fun i hi => ?_⟩
  · rw [h]
    exact List.nodup_nil
  · rw [h] at hi
    cases hi

theorem first (h : BegunOnce { s with settled := i :: s.settled } es) (hnew : i ∉ s.settled) :
    BegunOnce s (.begun i :: es) := by
  obtain ⟨hnodup, hfresh⟩ := h
  refine ⟨List.nodup_cons.mpr ⟨fun hi => hfresh i hi List.mem_cons_self, hnodup⟩, fun j hj => ?_⟩
  rcases List.mem_cons.mp hj with rfl | hj
  · exact hnew
  · exact fun hold => hfresh j hj (List.mem_cons_of_mem i hold)

theorem append (h : BegunOnce s es) (h' : BegunOnce u es')
    (hu : u.settled = (begun es).reverse ++ s.settled) : BegunOnce s (es ++ es') := by
  have hout : ∀ j ∈ begun es', j ∉ begun es ∧ j ∉ s.settled := by
    intro j hj
    have hnew := h'.new j hj
    rw [hu, List.mem_append, List.mem_reverse, not_or] at hnew
    exact hnew
  constructor
  · rw [begun_append]
    refine List.nodup_append.mpr ⟨h.nodup, h'.nodup, ?_⟩
    rintro i hi j hj rfl
    exact (hout i hj).1 hi
  · intro j hj
    rw [begun_append] at hj
    exact (List.mem_append.mp hj).elim (h.new j) fun hj => (hout j hj).2

end BegunOnce

theorem Runs.begunOnce {env : Env} {w : Task} {s t : State} {es : List Event}
    (h : Runs env w s es t) : BegunOnce s es := by
  induction h with
  | again | untaken | linked | swept => exact .of_nil rfl
  | first hnew _ ih => exact ih.first hnew
  | names _ _ _ ih =>
    obtain ⟨hnodup, hnew⟩ := ih
    rw [settled_warnOfBases] at hnew
    exact ⟨hnodup, hnew⟩
  | template _ _ _ _ ih =>
    obtain ⟨hnodup, hnew⟩ := ih
    rw [settled_warnAll] at hnew
    rw [← begun_copied] at hnodup hnew
    exact ⟨hnodup, hnew⟩
  | scope _ _ ih => exact ⟨ih.nodup, ih.new⟩
  | base _ hbase _ ihbase ihrest => exact ihbase.append ihrest hbase.settled
  | passed _ _ ih => exact ih
  | visited _ hvisit _ ihvisit ihrest => exact ihvisit.append ihrest hvisit.settled

/-- The class that a task has just begun with. -/
def Task.active : Task → List ClassId
  | .resolve i => [i]
  | _ => []

/-- Members are taken over at most once for each time that a class begins to be resolved. -/
theorem Runs.receivers_subperm {env : Env} {w : Task} {s t : State} {es : List Event}
    (h : Runs env w s es t) : (receivers es).Subperm (w.active ++ begun es) := by
  induction h with
  | again | linked | swept => exact List.Subperm.refl _
  | untaken => exact List.nil_subperm
  | first _ _ ih => exact ih
  | names _ _ _ ih => exact ih.trans (List.sublist_cons_self _ _).subperm
  | @template i _ _ _ _ _ _ _ _ _ _ _ ih =>
    rw [receivers_append, begun_copied]
    exact (ih.append (List.Subperm.refl [i])).trans List.perm_append_comm.subperm
  | scope _ _ ih => exact ih
  | base _ _ _ ihbase ihrest | visited _ _ _ ihbase ihrest =>
    rw [receivers_append, begun_append]
    exact ihbase.append ihrest
  | passed _ _ ih => exact ih

/-! ### All classes -/

theorem settle_of_mem {env : Env} {i : ClassId} {s : State} (h : i ∈ s.settled) :
    settle env i s = s := by
  unfold settle settleFrom
  exact if_pos h

/-- Resolving all classes once more changes nothing. -/
theorem settleAll_again (env : Env) (s : State) :
    settleAll env (settleAll env s) = settleAll env s := by
  have hsettling := settleAll_settling env s
  have hsettled : ∀ i ∈ s.registry.members, settleOne env (settleAll env s) i = settleAll env s := by
    intro i hi
    unfold settleOne
    split
    · rfl
    · next hkind =>
      rw [hsettling.isInterface, hsettling.isNamespace, Bool.or_eq_true, not_or,
        Bool.not_eq_true, Bool.not_eq_true] at hkind
      exact settle_of_mem (mem_settled_settleAll hi hkind.1 hkind.2)
  rw [settleAll_eq env (settleAll env s), hsettling.registry]
  exact List.foldlRecOn (motive := fun t => t = settleAll env s) s.registry.members _ rfl
    fun t ht i hi => ht ▸ hsettled i hi

/-- Resolving the bases of all registered classes comes to an end in one way, whatever their base
names. Every registered class but interfaces and namespaces begins to be resolved once, any other at
most once, and so a class takes over the members of a template at most once. To resolve a class again
changes nothing. -/
theorem settleAll_runs (env : Env) (s : State) :
    ∃ es, (∀ es' t, Runs env (.sweep s.registry.members) s es' t ↔ es' = es ∧ t = settleAll env s) ∧
      (∀ i, (begun es).count i ≤ 1 ∧ (receivers es).count i ≤ 1) ∧
      (∀ i ∈ s.registry.members, (s.store.get i).isInterface = false →
        (s.store.get i).isNamespace = false → i ∉ s.settled → (begun es).count i = 1) ∧
      (settleAll env s).settled = (begun es).reverse ++ s.settled ∧
      settleAll env (settleAll env s) = settleAll env s ∧
      ∀ t, ∀ i ∈ t.settled, settle env i t = t ∧
        ∀ es' u, Runs env (.settle i) t es' u ↔ es' = [] ∧ u = t := by
  obtain ⟨es, hrun⟩ := sweep_runs env s.registry.members s
  rw [← settleAll_eq] at hrun
  have honce := hrun.begunOnce
  have hbegun : ∀ i, (begun es).count i ≤ 1 := List.nodup_iff_count_le_one.mp honce.nodup
  refine ⟨es, fun es' t => ⟨fun h => hrun.unique h, ?_⟩, fun i => ⟨hbegun i, ?_⟩,
    fun i hi hkind hscope hnew => ?_, hrun.settled, settleAll_again env s,
    fun t i hi => ⟨settle_of_mem hi, fun es' u => ⟨fun h => Runs.unique (.again hi) h, ?_⟩⟩⟩
  · rintro ⟨rfl, rfl⟩
    exact hrun
  · exact (hrun.receivers_subperm.count_le i).trans (hbegun i)
  · have hmem : i ∈ (settleAll env s).settled := mem_settled_settleAll hi hkind hscope
    rw [hrun.settled, List.mem_append, List.mem_reverse] at hmem
    exact List.count_eq_one_of_mem honce.nodup (hmem.resolve_right hnew)
  · rintro ⟨rfl, rfl⟩
    exact .again hi

def chainRules : Database :=
  let (_, db) := Database.initial.add "int" .primitive
  let (_, db) := db.add "Ring" (.complex .container {})
  let (_, db) := db.add "Chain" (.complex .container {})
  (db.add "Box" (.complex .object {})).2

/-- Two templates that are instances of each other, and an instance of one of them. -/
def chainHeader : Header where
  global.classes := [
    { decls := { name := "Ring<T>" }, bases := [{ name := "Chain<T>" }], templateParams := ["T"] },
    { decls := { name := "Chain<T>" }, bases := [{ name := "Ring<T>" }], templateParams := ["T"] },
    { decls := { name := "Box" }, bases := [{ name := "Ring<int>" }] }]

/-- The classes of the header before their bases are resolved. -/
def chainClasses : State :=
  let env : Env := .make {} chainHeader
  (fillAll env).after ((declareAll env).after { db := chainRules })

theorem settleAll_runs_chain : ∃ es t,
    Runs (.make {} chainHeader) (.sweep chainClasses.registry.members) chainClasses es t ∧
      begun es = [2, 0, 1] := by
  have hfacts : decide ((settleAll (.make {} chainHeader) chainClasses).settled = [1, 0, 2] ∧
      chainClasses.settled = []) = true := by decide +kernel
  obtain ⟨hlast, hstart⟩ := of_decide_eq_true hfacts
  obtain ⟨es, hrun, -, -, hsettled, -⟩ := settleAll_runs (.make {} chainHeader) chainClasses
  refine ⟨es, _, (hrun es _).mpr ⟨rfl, rfl⟩, ?_⟩
  rw [hlast, hstart, List.append_nil] at hsettled
  rw [← List.reverse_reverse (begun es), ← hsettled]
  rfl

end BindingModel.Assembly
