import BindingModel.Proofs.Api.Ancestors
import BindingModel.Proofs.Assembly.FinishedOrder
import BindingModel.Proofs.Assembly.Stages

/-! The policies in force in a finished model: each goes by the function, the nearest class that
specifies it and the general rules, in this order and on its own. -/
namespace BindingModel
open Api

namespace Assembly

/-! ### The first that is specified -/

section
variable {α : Type} [DecidableEq α]

/-- The first policy that is specified, or the general one. -/
def firstSpecified (unspecified : α) (l : List α) (general : α) : α :=
  (l.find? (· ≠ unspecified)).getD general

/-- A policy is specified by the function itself, by the first class that a search from `i` comes to
and that specifies one, or by the general rules. No class that specifies one is nearer. -/
structure Precedence (unspecified : α) (next : ClassId → List ClassId) (i : ClassId) (own : α)
    (ofClass : ClassId → α) (general effective : α) : Prop where
  first : ∃ order, Search.BreadthFirst next i order ∧
    effective = firstSpecified unspecified (own :: order.map ofClass) general
  nearest : own = unspecified → ∀ n j, Search.Away next i n j → ofClass j ≠ unspecified →
    ∃ m ≤ n, ∃ k, Search.Away next i m k ∧ ofClass k ≠ unspecified ∧ effective = ofClass k

variable {unspecified a general : α} {l : List α}

theorem firstSpecified_cons : firstSpecified unspecified (a :: l) general =
    if a = unspecified then firstSpecified unspecified l general else a := by
  unfold firstSpecified
  by_cases h : a = unspecified <;> simp [h]

/-- What comes last takes the place of a policy that nothing specifies. -/
theorem firstSpecified_general : firstSpecified unspecified l general =
    if firstSpecified unspecified l unspecified = unspecified then general
    else firstSpecified unspecified l unspecified := by
  induction l with
  | nil => simp [firstSpecified]
  | cons a l ih =>
    rw [firstSpecified_cons, firstSpecified_cons]
    by_cases h : a = unspecified
    · rw [if_pos h, if_pos h, ih]
    · rw [if_neg h, if_neg h, if_neg h]

/-- The nearest class wins: those before it in a search specify nothing. -/
theorem Precedence.of_breadthFirst {next : ClassId → List ClassId} {i : ClassId}
    {order : List ClassId} {own effective : α} {ofClass : ClassId → α}
    (horder : Search.BreadthFirst next i order)
    (h : effective = firstSpecified unspecified (own :: order.map ofClass) general) :
    Precedence unspecified next i own ofClass general effective := by
  refine ⟨⟨order, horder, h⟩, fun hown n j haway hj => ?_⟩
  have hmem : j ∈ order := (horder.mem_iff j).mpr ⟨n, haway⟩
  obtain ⟨k, hk⟩ : ∃ k, order.find? (fun k => ofClass k ≠ unspecified) = some k := by
    refine Option.isSome_iff_exists.mp (List.find?_isSome.mpr ⟨j, hmem, ?_⟩)
    simpa using hj
  have hfirst : effective = ofClass k := by
    have hfound : (order.map ofClass).find? (· ≠ unspecified) = some (ofClass k) := by
      rw [List.find?_map]
      exact congrArg (Option.map ofClass) hk
    rw [h, firstSpecified_cons, if_pos hown, firstSpecified, hfound, Option.getD_some]
  obtain ⟨hspecified, before, after, hsplit, hbefore⟩ := List.find?_eq_some_iff_append.mp hk
  have hspecified : ofClass k ≠ unspecified := by simpa using hspecified
  have hnear : ∃ m ≤ n, Search.Away next i m k := by
    rw [hsplit] at hmem
    rcases List.mem_append.mp hmem with hj' | hj'
    · exact absurd hj (by simpa using hbefore j hj')
    · rcases List.mem_cons.mp hj' with rfl | hj'
      · exact ⟨n, Nat.le_refl n, haway⟩
      · have hpairwise := horder.nearest
        rw [hsplit, List.pairwise_append, List.pairwise_cons] at hpairwise
        exact hpairwise.2.1.1 j hj' n haway
  obtain ⟨m, hm, hk⟩ := hnear
  exact ⟨m, hm, k, hk, hspecified, hfirst⟩

end

/-! ### The policies of a class -/

/-- The policies that the rules of a class specify. -/
def ownPolicies (s : ClassStore) (i : ClassId) : Policies :=
  ((s.get i).entry.rules?.map (·.policies)).getD {}

theorem classPolicies_eq (s : ClassStore) (i : ClassId) : classPolicies s i =
    (ancestry s i).foldl (fun p j => p.orElse (ownPolicies s j)) ({} : Policies) :=
  rfl

theorem ancestry_breadthFirst (s : ClassStore) (i : ClassId) :
    Search.BreadthFirst s.bases i (ancestry s i) :=
  ClassStore.breadthFirst_of_isLive (fun _ _ => ClassStore.isLive_of_mem_bases) i

/-! ### One search for both policies -/

/-- Nothing is left to specify. -/
def Complete (p : Policies) : Prop :=
  p.exceptionHandling ≠ .unspecified ∧ p.allowThread ≠ .unspecified

/-- A search with a queue that takes what is still unspecified from each class it has not seen. As
soon as nothing is left to specify it stops. -/
inductive PolicySearch (s : ClassStore) :
    (seen queue : List ClassId) → (before after : Policies) → Prop
  | done {seen : List ClassId} {p : Policies} : PolicySearch s seen [] p p
  | skip {seen queue : List ClassId} {i : ClassId} {p q : Policies} (hi : i ∈ seen)
      (h : PolicySearch s seen queue p q) : PolicySearch s seen (i :: queue) p q
  | stop {seen queue : List ClassId} {i : ClassId} {p : Policies} (hi : i ∉ seen)
      (hall : Complete (p.orElse (ownPolicies s i))) :
      PolicySearch s seen (i :: queue) p (p.orElse (ownPolicies s i))
  | visit {seen queue : List ClassId} {i : ClassId} {p q : Policies} (hi : i ∉ seen)
      (hsome : ¬ Complete (p.orElse (ownPolicies s i)))
      (h : PolicySearch s (seen ++ [i]) (queue ++ s.bases i) (p.orElse (ownPolicies s i)) q) :
      PolicySearch s seen (i :: queue) p q

theorem Complete.foldl_orElse {p : Policies} (h : Complete p) (g : ClassId → Policies)
    (l : List ClassId) : l.foldl (fun p j => p.orElse (g j)) p = p := by
  induction l with
  | nil => rfl
  | cons j l ih =>
    have hkept : p.orElse (g j) = p := by
      unfold Policies.orElse
      rw [if_neg h.1, if_neg h.2]
    rw [List.foldl_cons, hkept, ih]

/-- The classes that come after the end of the search have nothing to add. -/
theorem policySearch_iff {s : ClassStore} {seen queue order : List ClassId}
    (h : Search.Explores s.bases seen queue order) (p q : Policies) :
    PolicySearch s seen queue p q ↔ q = order.foldl (fun p j => p.orElse (ownPolicies s j)) p := by
  induction h generalizing p with
  | done =>
    constructor
    · rintro ⟨⟩
      rfl
    · rintro rfl
      exact .done
  | @skip seen queue order i hi _ ih =>
    rw [← ih]
    constructor
    · intro h
      cases h with
      | skip _ h => exact h
      | stop hout | visit hout => exact absurd hi hout
    · exact .skip hi
  | @visit seen queue order i hi _ ih =>
    rw [List.foldl_cons]
    by_cases hall : Complete (p.orElse (ownPolicies s i))
    · rw [hall.foldl_orElse (ownPolicies s)]
      constructor
      · intro h
        cases h with
        | skip hin => exact absurd hin hi
        | stop => rfl
        | visit _ hsome => exact absurd hall hsome
      · rintro rfl
        exact .stop hi hall
    · rw [← ih]
      constructor
      · intro h
        cases h with
        | skip hin => exact absurd hin hi
        | stop _ hall' => exact absurd hall' hall
        | visit _ _ h => exact h
      · exact .visit hi hall

/-- The search from a class ends, whatever the bases, with the policies of the class. -/
theorem policySearch_iff_eq_classPolicies (s : ClassStore) (i : ClassId) (p : Policies) :
    PolicySearch s [] [i] {} p ↔ p = classPolicies s i :=
  policySearch_iff (ancestry_breadthFirst s i).explores {} p

section
variable {α : Type} [DecidableEq α] {π : Policies → α} {unspecified : α}
  (hπ : ∀ p q : Policies, π (p.orElse q) = if π p = unspecified then π q else π p)
include hπ

theorem foldl_orElse (g : ClassId → Policies) (l : List ClassId) (p : Policies) :
    π (l.foldl (fun p j => p.orElse (g j)) p) =
      firstSpecified unspecified (π p :: l.map fun j => π (g j)) unspecified := by
  induction l generalizing p with
  | nil => by_cases h : π p = unspecified <;> simp [firstSpecified, h]
  | cons j l ih =>
    rw [List.foldl_cons, ih, hπ, List.map_cons, firstSpecified_cons, firstSpecified_cons,
      firstSpecified_cons]
    by_cases h : π p = unspecified <;> simp [h]

/-- What a function gets from the classes of a search is the first policy that is specified. -/
theorem effective_settlePolicies (hempty : π {} = unspecified) (db : Database) (s : ClassStore)
    (i : ClassId) {f : Function} (hf : f.settled? = none) :
    π (settlePolicies db (classPolicies s i) f).effective =
      firstSpecified unspecified
        (π f.policies :: (ancestry s i).map fun j => π (ownPolicies s j)) (π db.policies) := by
  have heffective : (settlePolicies db (classPolicies s i) f).effective =
      (f.policies.orElse (classPolicies s i)).orElse db.policies := by
    unfold settlePolicies Function.effective Function.settle
    rw [hf]
    rfl
  have hclass : π (classPolicies s i) = firstSpecified unspecified
      ((ancestry s i).map fun j => π (ownPolicies s j)) unspecified := by
    rw [classPolicies_eq, foldl_orElse hπ (ownPolicies s), firstSpecified_cons, if_pos hempty]
  rw [heffective, hπ, hπ, hclass, firstSpecified_general (l := π f.policies :: _),
    firstSpecified_cons]

end

/-! ### Settling class after class -/

theorem bases_congr {s t : ClassStore} (h : s.SameNeeds t) : s.bases = t.bases := by
  funext i
  unfold ClassStore.bases
  rw [h.base?_eq, h.interfaces_eq]

theorem ownPolicies_congr {s t : ClassStore} (h : s.SameNeeds t) :
    ownPolicies s = ownPolicies t := by
  funext i
  unfold ownPolicies
  rw [BoundClass.entry_eq_of_needs (h.needs i)]

/-- The same classes with the same needs have the same policies. -/
theorem classPolicies_congr {s t : ClassStore} (h : s.SameNeeds t)
    (hsize : s.classes.size = t.classes.size) : classPolicies s = classPolicies t := by
  have hancestry : ancestry s = ancestry t := by
    funext i
    unfold ancestry
    rw [bases_congr h, hsize]
  funext i
  rw [classPolicies_eq, classPolicies_eq, hancestry, ownPolicies_congr h]

theorem settleClassPolicies_sameNeeds (db : Database) (s : ClassStore) (i : ClassId) :
    s.SameNeeds (settleClassPolicies db s i) := by
  refine .modify s i fun c => ?_
  unfold BoundClass.needs
  simp only [List.map_map]
  rfl

theorem functions_settleClassPolicies (db : Database) (s : ClassStore) (i j : ClassId) :
    ((settleClassPolicies db s i).get j).functions =
      if i = j then (s.get j).functions.map (settlePolicies db (classPolicies s i))
      else (s.get j).functions := by
  unfold settleClassPolicies
  rw [ClassStore.get_modify]
  by_cases hj : j < s.classes.size
  · simp only [hj, and_true]
    split <;> rfl
  · rw [if_neg fun h => hj h.2, ClassStore.get_of_size_le s (Nat.not_lt.mp hj)]
    split <;> rfl

/-- Each class of a list without repetition settles its functions by its own policies. -/
theorem functions_settleAll (db : Database) {classes : List ClassId} (hnodup : classes.Nodup)
    (s : ClassStore) (j : ClassId) :
    ((classes.foldl (settleClassPolicies db) s).get j).functions =
      if j ∈ classes then (s.get j).functions.map (settlePolicies db (classPolicies s j))
      else (s.get j).functions := by
  induction classes generalizing s with
  | nil => simp
  | cons i classes ih =>
    obtain ⟨hi, hnodup⟩ := List.nodup_cons.mp hnodup
    have hpolicies : classPolicies s = classPolicies (settleClassPolicies db s i) :=
      classPolicies_congr (settleClassPolicies_sameNeeds db s i) (s.size_modify i _).symm
    rw [List.foldl_cons, ih hnodup, functions_settleClassPolicies, ← hpolicies]
    by_cases hij : i = j
    · subst hij
      simp [hi]
    · simp [hij, Ne.symm hij]

/-! ### Before the policies are settled -/

theorem Touches.unsettled {s : State} {k : Stage} {c d : BoundClass} (h : Touches s k c d)
    (hs : s.Unsettled) (hc : ∀ f ∈ c.functions, f.settled? = none) :
    ∀ f ∈ d.functions, f.settled? = none := by
  have hadd : ∀ f : Function, f.settled? = none →
      ∀ g ∈ c.functions ++ [f], g.settled? = none := by
    intro f hf g hg
    rcases List.mem_append.mp hg with hg | hg
    · exact hc g hg
    · rwa [List.mem_singleton.mp hg]
  cases h with
  | create hfunctions =>
    rw [hfunctions]
    exact fun _ hf => absurd hf List.not_mem_nil
  | addEnum => exact hc
  | edit h => rwa [BoundClass.functions_eq_of_core h.core]
  | takeMarks => exact hc
  | addField => exact hc
  | addMember _ hf => exact hadd _ hf.settled?
  | addRule _ hf => exact hadd _ hf.settled?
  | addLate _ hf => exact hadd _ (hf hs)

theorem Step.unsettled {D : List (String × Header.EnumDecl)} {k : Stage} {s t : State}
    (h : Step D s k t) (hs : s.Unsettled) : t.Unsettled :=
  fun i => (h.touches i).unsettled hs (hs i)

theorem Step.policies {D : List (String × Header.EnumDecl)} {k : Stage} {s t : State}
    (h : Step D s k t) : t.db.policies = s.db.policies := by
  cases h with
  | aside hdb => rw [hdb]
  | learn hdb => exact hdb.policies
  | disable => exact (Database.Extends.setCodegen s.db _ noCode).policies
  | _ => rfl

theorem Course.unsettled {env : Env} {db : Database} {s₁ s₂ s₃ s₄ : State}
    (h : Course env { db } s₁ s₂ s₃ s₄) : s₄.Unsettled := by
  refine h.keeps (I := State.Unsettled) Step.unsettled (fun _ _ hs => hs) (fun {s} hs => ?_)
    fun _ _ hf => by cases hf
  unfold State.Unsettled
  rwa [store_checkEntries]

theorem Course.policies {env : Env} {s₀ s₁ s₂ s₃ s₄ : State} (h : Course env s₀ s₁ s₂ s₃ s₄) :
    s₄.db.policies = s₀.db.policies :=
  h.keeps (I := fun s => s.db.policies = s₀.db.policies) (fun hstep hs => hstep.policies.trans hs)
    (fun _ _ hs => hs) (fun hs => (extends_checkEntries _).policies.trans hs) rfl

/-! ### Finished models -/

/-- In a finished model, the policies of every function of a class are its own, those of the class
and its bases, and the general ones, in the order of a breadth-first search along the bases. One
policy does not depend on the other, although one search that stops early finds both. -/
theorem policies_by_precedence :
    (∀ (s : ClassStore) (i : ClassId), Search.BreadthFirst s.bases i (ancestry s i) ∧
      ∀ p, PolicySearch s [] [i] {} p ↔ p = classPolicies s i) ∧
    ∀ (config : Config) (header : Header) (db : Database) (m : Model),
      (assemble config header db).result = .ok m →
      ∀ i ∈ m.classes, ∀ f ∈ (m.store.get i).functions,
        Precedence .unspecified m.store.bases i f.policies.exceptionHandling
          (fun j => (ownPolicies m.store j).exceptionHandling) db.policies.exceptionHandling
          f.effective.exceptionHandling ∧
        Precedence .unspecified m.store.bases i f.policies.allowThread
          (fun j => (ownPolicies m.store j).allowThread) db.policies.allowThread
          f.effective.allowThread := by
  refine ⟨fun s i => ⟨ancestry_breadthFirst s i, policySearch_iff_eq_classPolicies s i⟩,
    fun config header db m hm i hi f hf => ?_⟩
  obtain ⟨classes, s, hrun, rfl⟩ := assemble_eq_ok.mp hm
  have hnodup : classes.Nodup := (run_ordered hrun).nodup
  obtain ⟨s₁, s₂, s₃, t, hcourse, rfl⟩ := run_course hrun
  have hsame : t.store.SameNeeds (settlePoliciesAll classes t).store :=
    (settlePoliciesAll_keepsOrder classes t).store
  have hi : i ∈ classes := hi
  have hfunctions := functions_settleAll t.db hnodup t.store i
  rw [if_pos hi] at hfunctions
  obtain ⟨g, hg, rfl⟩ : ∃ g ∈ (t.store.get i).functions,
      settlePolicies t.db (classPolicies t.store i) g = f :=
    List.mem_map.mp (hfunctions ▸ hf)
  have hsettled : g.settled? = none := hcourse.unsettled i g hg
  have hspec : ∀ {α : Type} [DecidableEq α] {π : Policies → α} {unspecified : α},
      (∀ p q : Policies, π (p.orElse q) = if π p = unspecified then π q else π p) →
      π {} = unspecified →
      Precedence unspecified (settlePoliciesAll classes t).store.bases i (π g.policies)
        (fun j => π (ownPolicies (settlePoliciesAll classes t).store j)) (π db.policies)
        (π (settlePolicies t.db (classPolicies t.store i) g).effective) := by
    intro α _ π unspecified hπ hempty
    rw [← bases_congr hsame, ← ownPolicies_congr hsame]
    refine .of_breadthFirst (ancestry_breadthFirst t.store i) ?_
    rw [effective_settlePolicies hπ hempty t.db t.store i hsettled, hcourse.policies]
  exact ⟨hspec (fun _ _ => rfl) rfl, hspec (fun _ _ => rfl) rfl⟩

/-- Two classes with a common base. The right one allows threads, the common base does not. -/
def diamondRules : Database :=
  let (_, db) := Database.initial.add "Root"
    (.complex .object { policies := ⟨.on, .disallow⟩ })
  let (_, db) := db.add "Left" (.complex .object {})
  let (_, db) := db.add "Right" (.complex .object { policies := ⟨.unspecified, .allow⟩ })
  let (_, db) := db.add "Bottom" (.complex .object {})
  { db with policies := ⟨.off, .auto⟩ }

def diamondHeader : Header where
  global.classes := [
    { decls := { name := "Root" } },
    { decls := { name := "Left" }, bases := [{ name := "Root" }] },
    { decls := { name := "Right" }, bases := [{ name := "Root" }] },
    { decls := { name := "Bottom", functions := [{ name := "draw" }] }
      bases := [{ name := "Left" }, { name := "Right" }] }]

theorem policies_by_precedence_diamond :
    ∃ m, (assemble {} diamondHeader diamondRules).result = .ok m ∧ 3 ∈ m.classes ∧
      ∃ f ∈ (m.store.get 3).functions, f.name = "draw" ∧
        Precedence .unspecified m.store.bases 3 .unspecified
          (fun j => (ownPolicies m.store j).exceptionHandling) .off .on ∧
        Precedence .unspecified m.store.bases 3 .unspecified
          (fun j => (ownPolicies m.store j).allowThread) .auto .allow := by
  obtain ⟨m, hm, hshape⟩ := exists_model_of_any
    (p := fun m => decide (3 ∈ m.classes) && (m.store.get 3).functions.any fun f =>
      f.name == "draw" && decide (f.policies = {} ∧ f.effective = ⟨.on, .allow⟩))
    (show (assemble {} diamondHeader diamondRules).result.toOption.any _ = true by
      decide +kernel)
  simp only [Bool.and_eq_true, decide_eq_true_eq, List.any_eq_true, beq_iff_eq] at hshape
  obtain ⟨hclass, f, hf, hname, hpolicies, heffective⟩ := hshape
  have hprecedence := policies_by_precedence.2 {} diamondHeader diamondRules m hm 3 hclass f hf
  rw [hpolicies, heffective] at hprecedence
  exact ⟨m, hm, hclass, f, hf, hname, hprecedence⟩

end Assembly
end BindingModel
