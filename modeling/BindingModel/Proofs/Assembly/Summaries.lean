import BindingModel.Proofs.Assembly.Stages

/-! The marks of a class that sum up its functions: they are put on it with what it declares, and
nothing that it gets later adds to them. -/
namespace BindingModel
open Api Assembly

namespace Api.BoundClass

/-- The marks of the class sum up the functions that declarations gave it. -/
structure Summed (c : BoundClass) : Prop where
  abstract : c.has .abstract = c.functions.any (·.has .abstract)
  equals : c.has .hasEqualsOperator = c.functions.any fun f => f.isEquals && !f.has .added

/-- The class has got more functions, but no such mark unless it is a typedef. -/
structure Completed (c d : BoundClass) : Prop where
  isTypedef : d.isTypedef = c.isTypedef
  functions : c.functions <+: d.functions
  marks : c.isTypedef = false → ∀ a ∈ summaryMarks, d.has a = c.has a

variable {c d e : BoundClass} {f : Function}

/-- Only constructors leave marks when they are added, and those are other ones. -/
theorem has_addFunction (c : BoundClass) (f : Function) {a : ClassAttr} (ha : a ∈ summaryMarks) :
    (c.addFunction f).has a = c.has a := by
  have hcases : a = .abstract ∨ a = .hasEqualsOperator := by simpa [summaryMarks] using ha
  have hother : a ≠ .hasPrivateConstructor ∧ a ≠ .hasNonPrivateConstructor := by
    rcases hcases with rfl | rfl <;> decide
  unfold addFunction has
  dsimp only
  split
  · rw [FlagSet.has_insert, Bool.or_eq_left_iff_imp]
    intro h
    split at h
    · exact absurd (of_decide_eq_true h) hother.1
    · exact absurd (of_decide_eq_true h) hother.2
  · rfl

namespace Summed

theorem of_same (h : c.Summed) (hfunctions : d.functions = c.functions)
    (hmarks : ∀ a ∈ summaryMarks, d.has a = c.has a) : d.Summed := by
  constructor
  · rw [hmarks .abstract (by decide), hfunctions, h.abstract]
  · rw [hmarks .hasEqualsOperator (by decide), hfunctions, h.equals]

/-- A rule adds no abstract function, and its operators do not count. -/
theorem addRule (h : c.Summed) (hf : f.AddedByRule) : (c.addFunction f).Summed := by
  constructor
  · rw [has_addFunction c f (by decide), h.abstract]
    show _ = (c.functions ++ [f]).any _
    simp [hf.abstract]
  · rw [has_addFunction c f (by decide), h.equals]
    show _ = (c.functions ++ [f]).any _
    simp [hf.added]

/-- A declared function leaves its marks before it is added. -/
theorem addMember (h : c.Summed) (hf : f.Declared) :
    (addFunction { c with attrs := c.attrs.insertAll (memberMarks f) } f).Summed := by
  have hattrs : ∀ a, (c.attrs.insertAll (memberMarks f)).has a =
      (c.has a || (memberMarks f).contains a) := fun a => FlagSet.has_insertAll _ _ a
  constructor
  · rw [has_addFunction _ f (by decide)]
    show (c.attrs.insertAll (memberMarks f)).has .abstract = (c.functions ++ [f]).any _
    rw [hattrs, h.abstract, List.any_append]
    unfold memberMarks
    cases f.isEquals <;> cases habstract : f.has .abstract <;> simp [habstract]
  · rw [has_addFunction _ f (by decide)]
    show (c.attrs.insertAll (memberMarks f)).has .hasEqualsOperator = (c.functions ++ [f]).any _
    rw [hattrs, h.equals, List.any_append]
    unfold memberMarks
    cases hequals : f.isEquals <;> cases f.has .abstract <;> simp [hequals, hf.added]

end Summed

namespace Completed

theorem refl (c : BoundClass) : c.Completed c := ⟨rfl, List.prefix_rfl, fun _ _ _ => rfl⟩

theorem trans (h : c.Completed d) (k : d.Completed e) : c.Completed e := by
  refine ⟨k.isTypedef.trans h.isTypedef, h.functions.trans k.functions, fun hc a ha => ?_⟩
  rw [k.marks (h.isTypedef.trans hc) a ha, h.marks hc a ha]

theorem addFunction (c : BoundClass) (f : Function) : c.Completed (c.addFunction f) :=
  ⟨rfl, List.prefix_append _ _, fun _ _ ha => has_addFunction c f ha⟩

end Completed
end Api.BoundClass

namespace Assembly

/-! ### Declarations and members -/

theorem Touches.summed {s : State} {k : Stage} {c d : BoundClass} (h : Touches s k c d)
    (hk : k ≠ .completing) (hc : c.Summed) : d.Summed := by
  cases h with
  | create hfunctions _ hmarks =>
    constructor
    · rw [hfunctions, hmarks .abstract (by decide), List.any_nil]
    · rw [hfunctions, hmarks .hasEqualsOperator (by decide), List.any_nil]
  | addEnum => exact hc.of_same rfl fun _ _ => rfl
  | edit h => exact hc.of_same (BoundClass.functions_eq_of_core h.core) h.marks
  | takeMarks => exact absurd rfl hk
  | addField => exact hc.of_same rfl fun _ _ => rfl
  | addMember _ hf => exact hc.addMember hf
  | addRule _ hf => exact hc.addRule hf
  | addLate => exact absurd rfl hk

theorem Step.summed {D : List (String × Header.EnumDecl)} {k : Stage} {s t : State}
    (hk : k ≠ .completing) (h : Step D s k t) (hs : ∀ i, (s.store.get i).Summed) :
    ∀ i, (t.store.get i).Summed :=
  fun i => (h.touches i).summed hk (hs i)

/-! ### Completion -/

theorem Touches.completed {s : State} {c d : BoundClass} (h : Touches s .completing c d) :
    c.Completed d := by
  cases h with
  | edit h =>
    refine ⟨?_, ?_, fun _ => h.marks⟩
    · exact congrArg ClassHead.isTypedef (BoundClass.head_eq_of_core h.core)
    · rw [BoundClass.functions_eq_of_core h.core]
  | takeMarks _ marks htypedef =>
    refine ⟨rfl, List.prefix_rfl, fun hplain => ?_⟩
    rw [htypedef] at hplain
    cases hplain
  | addField => exact ⟨rfl, List.prefix_rfl, fun _ _ _ => rfl⟩
  | addRule _ _ hk => simp at hk
  | addLate => exact .addFunction c _

theorem Advances.completed {D : List (String × Header.EnumDecl)} {s t : State}
    (h : Advances D .completing s t) (i : ClassId) :
    (s.store.get i).Completed (t.store.get i) := by
  induction h with
  | refl => exact .refl _
  | tail _ hstep ih => exact ih.trans (hstep.touches i).completed

theorem Course.summed {env : Env} {db : Database} {s₁ s₂ s₃ s₄ : State}
    (h : Course env { db } s₁ s₂ s₃ s₄) (i : ClassId) : (s₂.store.get i).Summed := by
  have hempty : ∀ i, ((({ db } : State).store).get i).Summed := fun _ => ⟨rfl, rfl⟩
  have hdeclared := h.opens.declaring.keeps (I := fun s => ∀ i, (s.store.get i).Summed)
    (fun hstep => hstep.summed (by decide)) (fun _ _ hs => hs) hempty
  exact h.filling.keeps (I := fun s => ∀ i, (s.store.get i).Summed)
    (fun hstep => hstep.summed (by decide)) hdeclared i

theorem Course.completed {env : Env} {s₀ s₁ s₂ s₃ s₄ : State} (h : Course env s₀ s₁ s₂ s₃ s₄)
    (i : ClassId) : (s₂.store.get i).Completed (s₄.store.get i) := by
  have hfinished := h.finishing.completed i
  rw [store_checkEntries] at hfinished
  exact (h.completing.completed i).trans hfinished

/-! ### Finished models -/

/-- In a finished model, a class that is no typedef is marked for the functions that it had after
the second pass: as abstract for any abstract one and as comparable for any operator that no rule
added. It still has these functions, so it never has a mark without such a function. -/
theorem marks_of_members {config : Config} {header : Header} {db : Database} {m : Model}
    (hm : (assemble config header db).result = .ok m) :
    ∃ u, (declareAll (.make config header) >>= fun _ => fillAll (.make config header)) { db } =
        .ok () u ∧
      ∀ i, (m.store.get i).isTypedef = false →
        (u.store.get i).functions.map (·.unsettled) <+:
          (m.store.get i).functions.map (·.unsettled) ∧
        (m.store.get i).has .abstract = (u.store.get i).functions.any (·.has .abstract) ∧
        ((m.store.get i).has .hasEqualsOperator =
          (u.store.get i).functions.any fun f => f.isEquals && !f.has .added) ∧
        ((m.store.get i).has .abstract = true →
          ∃ f ∈ (m.store.get i).functions, f.has .abstract = true) ∧
        ((m.store.get i).has .hasEqualsOperator = true →
          ∃ f ∈ (m.store.get i).functions, f.isEquals = true) := by
  obtain ⟨classes, s, hrun, rfl⟩ := assemble_eq_ok.mp hm
  obtain ⟨s₁, u, s₃, t, hcourse, rfl⟩ := run_course hrun
  refine ⟨u, Build.bind_eq_ok.mpr ⟨(), s₁, hcourse.declares, hcourse.fills⟩, fun i hi => ?_⟩
  have hsummed := hcourse.summed i
  have hcompleted := hcourse.completed i
  obtain ⟨hhead, hattrs, -, -, hfunctions⟩ := settlePoliciesAll_frame classes t i
  have htypedef := congrArg ClassHead.isTypedef hhead
  have hkept : (u.store.get i).functions.map (·.unsettled) <+:
      ((settlePoliciesAll classes t).store.get i).functions.map (·.unsettled) := by
    rw [hfunctions]
    exact hcompleted.functions.map _
  have hmarks : ∀ a ∈ BoundClass.summaryMarks,
      ((settlePoliciesAll classes t).store.get i).has a = (u.store.get i).has a := by
    intro a ha
    have hplain : (u.store.get i).isTypedef = false :=
      hcompleted.isTypedef.symm.trans (htypedef.symm.trans hi)
    rw [← hcompleted.marks hplain a ha]
    exact congrArg (FlagSet.has · a) hattrs
  -- a function after the second pass is still there, with the same marks of its own
  have hstays : ∀ p : Function → Bool, (∀ f : Function, p f.unsettled = p f) →
      (u.store.get i).functions.any p = true →
      ∃ f ∈ ((settlePoliciesAll classes t).store.get i).functions, p f = true := by
    intro p hp hany
    obtain ⟨f, hf, hpf⟩ := List.any_eq_true.mp hany
    obtain ⟨g, hg, hsame⟩ := List.mem_map.mp
      (hkept.subset (List.mem_map_of_mem (f := Function.unsettled) hf))
    exact ⟨g, hg, by rw [← hp g, hsame, hp f, hpf]⟩
  have habstract := hsummed.abstract
  have hequals := hsummed.equals
  rw [← hmarks _ (by decide)] at habstract hequals
  refine ⟨hkept, habstract, hequals, fun h => ?_, fun h => ?_⟩
  · exact hstays (·.has .abstract) (fun _ => rfl) (habstract.symm.trans h)
  · obtain ⟨f, hf, hdeclared⟩ := hstays (fun f => f.isEquals && !f.has .added) (fun _ => rfl)
      (hequals.symm.trans h)
    exact ⟨f, hf, (Bool.and_eq_true_iff.mp hdeclared).1⟩

/-- Rules for a template and for a class that takes functions over from it. -/
def boxedRules : Database :=
  let (_, db) := Database.initial.add "bool" .primitive
  let (_, db) := db.add "int" .primitive
  let (_, db) := db.add "Holder" (.complex .container {})
  (db.add "Box" (.complex .object {})).2

/-- The template has an abstract function, and boxes are compared by an operator of their own. -/
def boxedHeader : Header where
  global.decls.functions := [
    { name := "operator==", returnType := .ofName "bool"
      args := [⟨"a", .ofName "Box", none⟩, ⟨"b", .ofName "Box", none⟩] }]
  global.classes := [
    { decls := { name := "Holder<T>"
                 functions := [{ name := "reset", specifiers := .ofList [.abstract] }] }
      templateParams := ["T"] },
    { decls := { name := "Box" }, bases := [{ name := "Holder<int>" }] }]

theorem marks_of_members_boxed :
    ∃ m, (assemble {} boxedHeader boxedRules).result = .ok m ∧
      ∃ u, (declareAll (.make {} boxedHeader) >>= fun _ => fillAll (.make {} boxedHeader))
          { db := boxedRules } = .ok () u ∧
        (m.store.get 0).isTypedef = false ∧ (m.store.get 0).has .abstract = true ∧
        (u.store.get 0).functions.any (·.has .abstract) = true := by
  obtain ⟨m, hm, hshape⟩ := exists_model_of_any
    (p := fun m => !(m.store.get 0).isTypedef && (m.store.get 0).has .abstract)
    (show (assemble {} boxedHeader boxedRules).result.toOption.any _ = true by decide +kernel)
  rw [Bool.and_eq_true, Bool.not_eq_true'] at hshape
  obtain ⟨u, hu, hmarks⟩ := marks_of_members hm
  obtain ⟨-, habstract, -⟩ := hmarks 0 hshape.1
  exact ⟨m, hm, u, hu, hshape.1, hshape.2, habstract.symm.trans hshape.2⟩

/-- Neither a function that was taken over nor an operator from the global scope leaves a mark. -/
theorem marks_missing :
    ∃ m, (assemble {} boxedHeader boxedRules).result = .ok m ∧ 1 ∈ m.classes ∧
      (m.store.get 1).isTypedef = false ∧
      (m.store.get 1).functions.map (fun f => (f.declaredName, f.has .abstract)) =
        [("reset", true), ("Box", false), ("operator==", false)] ∧
      (m.store.get 1).has .abstract = false ∧ (m.store.get 1).has .hasEqualsOperator = false := by
  obtain ⟨m, hm, hfacts⟩ := exists_model_of_any (p := fun m =>
    decide (1 ∈ m.classes) && !(m.store.get 1).isTypedef &&
    decide ((m.store.get 1).functions.map (fun f => (f.declaredName, f.has .abstract)) =
      [("reset", true), ("Box", false), ("operator==", false)]) &&
    !(m.store.get 1).has .abstract && !(m.store.get 1).has .hasEqualsOperator)
    (show (assemble {} boxedHeader boxedRules).result.toOption.any _ = true by decide +kernel)
  simp only [Bool.and_eq_true, decide_eq_true_eq, Bool.not_eq_true'] at hfacts
  obtain ⟨⟨⟨⟨hclass, htypedef⟩, hfunctions⟩, habstract⟩, hequals⟩ := hfacts
  exact ⟨m, hm, hclass, htypedef, hfunctions, habstract, hequals⟩

end Assembly
end BindingModel
