import BindingModel.Proofs.Assembly.Precedence

/-! The policies of interfaces are not settled, as interfaces have no place among the ordered
classes. So their functions go by precedence only where nothing but the function itself has a
say. -/
namespace BindingModel
open Api

namespace Assembly

section
variable {α : Type} [DecidableEq α] {unspecified general : α}

theorem firstSpecified_eq_unspecified {l : List α} :
    firstSpecified unspecified l general = unspecified ↔
      (∀ a ∈ l, a = unspecified) ∧ general = unspecified := by
  induction l with
  | nil => simp [firstSpecified]
  | cons a l ih =>
    rw [firstSpecified_cons, List.forall_mem_cons]
    by_cases h : a = unspecified
    · rw [if_pos h, ih]
      simp [h]
    · rw [if_neg h]
      simp [h]

/-- A function's own policy takes precedence where it is specified, or where nothing that comes
after it is. -/
theorem precedence_own_iff {next : ClassId → List ClassId} {i : ClassId} {order : List ClassId}
    {own : α} {ofClass : ClassId → α} (horder : Search.BreadthFirst next i order) :
    Precedence unspecified next i own ofClass general own ↔ own ≠ unspecified ∨
      (∀ n j, Search.Away next i n j → ofClass j = unspecified) ∧ general = unspecified := by
  constructor
  · intro h
    by_cases hown : own = unspecified
    · obtain ⟨visited, hvisited, hfirst⟩ := h.first
      rw [firstSpecified_cons, if_pos hown, hown, eq_comm, firstSpecified_eq_unspecified] at hfirst
      refine .inr ⟨fun n j haway => ?_, hfirst.2⟩
      have hj : j ∈ visited := (hvisited.mem_iff j).mpr ⟨n, haway⟩
      exact hfirst.1 _ (List.mem_map_of_mem hj)
    · exact .inl hown
  · intro h
    apply Precedence.of_breadthFirst horder
    rw [firstSpecified_cons]
    by_cases hown : own = unspecified
    · obtain ⟨hnone, hgeneral⟩ := h.resolve_left fun hspecified => hspecified hown
      rw [if_pos hown, hown, eq_comm, firstSpecified_eq_unspecified]
      refine ⟨fun a ha => ?_, hgeneral⟩
      obtain ⟨j, hj, rfl⟩ := List.mem_map.mp ha
      obtain ⟨n, haway⟩ := (horder.mem_iff j).mp hj
      exact hnone n j haway
    · rw [if_neg hown]

end

/-- What is no ordered class keeps the functions that it had before policies are settled. -/
theorem effective_of_not_mem {env : Env} {db : Database} {classes : List ClassId} {s : State}
    (h : run env { db } = .ok classes s) {i : ClassId} (hi : i ∉ classes) {f : Function}
    (hf : f ∈ (s.store.get i).functions) : f.effective = f.policies := by
  have hnodup : classes.Nodup := (run_ordered h).nodup
  obtain ⟨s₁, s₂, s₃, t, hcourse, rfl⟩ := run_course h
  have hfunctions := functions_settleAll t.db hnodup t.store i
  rw [if_neg hi] at hfunctions
  have hsettled : f.settled? = none := hcourse.unsettled i f (hfunctions ▸ hf)
  unfold Function.effective
  rw [hsettled]
  rfl

/-- In a finished model the functions of interfaces have their own policies in force. That is what
precedence asks for exactly if the policy is specified there, or neither by a class along the bases
nor by the general rules. -/
theorem interface_policies (config : Config) (header : Header) (db : Database) (m : Model)
    (hm : (assemble config header db).result = .ok m) :
    ∀ i ∈ m.interfaces, ∀ f ∈ (m.store.get i).functions,
      f.effective = f.policies ∧
      (Precedence .unspecified m.store.bases i f.policies.exceptionHandling
          (fun j => (ownPolicies m.store j).exceptionHandling) db.policies.exceptionHandling
          f.effective.exceptionHandling ↔
        f.policies.exceptionHandling ≠ .unspecified ∨
          (∀ n j, Search.Away m.store.bases i n j →
            (ownPolicies m.store j).exceptionHandling = .unspecified) ∧
          db.policies.exceptionHandling = .unspecified) ∧
      (Precedence .unspecified m.store.bases i f.policies.allowThread
          (fun j => (ownPolicies m.store j).allowThread) db.policies.allowThread
          f.effective.allowThread ↔
        f.policies.allowThread ≠ .unspecified ∨
          (∀ n j, Search.Away m.store.bases i n j →
            (ownPolicies m.store j).allowThread = .unspecified) ∧
          db.policies.allowThread = .unspecified) := by
  intro i hi f hf
  obtain ⟨classes, s, hrun, rfl⟩ := assemble_eq_ok.mp hm
  have hkind : (s.store.get i).isInterface = true := (List.mem_filter.mp hi).2
  have hout : i ∉ classes := by
    intro hmem
    have hplain := (((run_ordered hrun).mem_iff i).mp hmem).2
    rw [hkind] at hplain
    cases hplain
  have heffective := effective_of_not_mem hrun hout hf
  have horder := ancestry_breadthFirst s.store i
  rw [heffective]
  exact ⟨rfl, precedence_own_iff horder, precedence_own_iff horder⟩

/-- An interface that specifies policies, and a function of it with policies of its own. -/
def shapeRules : Database :=
  let stop : FunctionMod :=
    { FunctionMod.ofSignature "stop()" with policies := ⟨.autoDefaultToOn, .disallow⟩ }
  let (shape, db) := Database.initial.add "Shape"
    (.complex .interface { policies := ⟨.on, .allow⟩ })
  { db.addMod shape stop with policies := ⟨.off, .auto⟩ }

def shapeHeader : Header where
  global.classes := [
    { decls := { name := "Shape", functions := [{ name := "draw" }, { name := "stop" }] } }]

theorem interface_policies_shape :
    ∃ m, (assemble {} shapeHeader shapeRules).result = .ok m ∧ 0 ∈ m.interfaces ∧
      ∃ f ∈ (m.store.get 0).functions, f.name = "stop" ∧
        f.policies = ⟨.autoDefaultToOn, .disallow⟩ ∧ f.effective = f.policies ∧
        Precedence .unspecified m.store.bases 0 .autoDefaultToOn
          (fun j => (ownPolicies m.store j).exceptionHandling) .off .autoDefaultToOn ∧
        Precedence .unspecified m.store.bases 0 .disallow
          (fun j => (ownPolicies m.store j).allowThread) .auto .disallow := by
  obtain ⟨m, hm, hshape⟩ := exists_model_of_any
    (p := fun m => decide (0 ∈ m.interfaces) && (m.store.get 0).functions.any fun f =>
      f.name == "stop" && decide (f.policies = ⟨.autoDefaultToOn, .disallow⟩))
    (show (assemble {} shapeHeader shapeRules).result.toOption.any _ = true by decide +kernel)
  simp only [Bool.and_eq_true, decide_eq_true_eq, List.any_eq_true, beq_iff_eq] at hshape
  obtain ⟨hinterface, f, hf, hname, hpolicies⟩ := hshape
  obtain ⟨heffective, hexceptions, hthreads⟩ :=
    interface_policies {} shapeHeader shapeRules m hm 0 hinterface f hf
  rw [heffective, hpolicies] at hexceptions hthreads
  exact ⟨m, hm, hinterface, f, hf, hname, hpolicies, heffective,
    hexceptions.mpr (.inl (by decide)), hthreads.mpr (.inl (by decide))⟩

/-- The interface specifies both policies, and so do the general rules, but neither is in force for
a function that does not. -/
theorem interface_policies_missing :
    ∃ m, (assemble {} shapeHeader shapeRules).result = .ok m ∧ 0 ∈ m.interfaces ∧
      ownPolicies m.store 0 = ⟨.on, .allow⟩ ∧
      ∃ f ∈ (m.store.get 0).functions, f.name = "draw" ∧ f.policies = {} ∧ f.effective = {} ∧
        ¬ Precedence .unspecified m.store.bases 0 f.policies.exceptionHandling
          (fun j => (ownPolicies m.store j).exceptionHandling)
          shapeRules.policies.exceptionHandling f.effective.exceptionHandling ∧
        ¬ Precedence .unspecified m.store.bases 0 f.policies.allowThread
          (fun j => (ownPolicies m.store j).allowThread)
          shapeRules.policies.allowThread f.effective.allowThread := by
  obtain ⟨m, hm, hshape⟩ := exists_model_of_any
    (p := fun m => decide (0 ∈ m.interfaces ∧ ownPolicies m.store 0 = ⟨.on, .allow⟩) &&
      (m.store.get 0).functions.any fun f =>
        f.name == "draw" && decide (f.policies = {} ∧ f.effective = {}))
    (show (assemble {} shapeHeader shapeRules).result.toOption.any _ = true by decide +kernel)
  simp only [Bool.and_eq_true, decide_eq_true_eq, List.any_eq_true, beq_iff_eq] at hshape
  obtain ⟨⟨hinterface, hown⟩, f, hf, hname, hpolicies, heffective⟩ := hshape
  have horder := ancestry_breadthFirst m.store 0
  refine ⟨m, hm, hinterface, hown, f, hf, hname, hpolicies, heffective, ?_, ?_⟩
  · rw [hpolicies, heffective, precedence_own_iff horder]
    rintro (h | ⟨-, hgeneral⟩)
    · exact h rfl
    · cases hgeneral
  · rw [hpolicies, heffective, precedence_own_iff horder]
    rintro (h | ⟨-, hgeneral⟩)
    · exact h rfl
    · cases hgeneral

end Assembly
end BindingModel
