import BindingModel.Proofs.Assembly.Origins
import BindingModel.Proofs.Assembly.Scopes

/-! A successful assembly, stage by stage. -/
namespace BindingModel.Assembly
open Api Header

section
variable {D : List (String × EnumDecl)} {env : Env} {s : State}

/-! ### Members -/

theorem addMembers_advances (p : Place) (i : ClassId) (d : Declarations) :
    Outcome (Advances D .filling) (fun _ _ => True) (addMembers env p i d) s := by
  refine .andThen (.modify ?_) fun _ t => .andThen (.modify ?_) fun _ u => ?_
  · exact .foldl (fun t v _ => addField_advances (by decide) env p i t v) s
  · exact .foldl (fun u f _ => addMember_advances env p i u f) t
  · exact fillAdded_advances (.inl rfl)

mutual

theorem fillClass_advances (env : Env) (p : Place) (s : State) : (d : ClassDecl) →
    Outcome (Advances D .filling) (fun _ _ => True) (fillClass env p d) s
  | ⟨decls, classes, _, _, _, _⟩ => by
    unfold fillClass
    refine .get_bind ?_
    split
    · exact .pure _
    · exact .andThen (addMembers_advances _ _ decls) fun _ t => fillClasses_advances env _ t classes

theorem fillClasses_advances (env : Env) (p : Place) (s : State) : (l : List ClassDecl) →
    Outcome (Advances D .filling) (fun _ _ => True) (fillClasses env p l) s
  | [] => .pure _
  | d :: ds => .andThen (fillClass_advances env p s d) fun _ t => fillClasses_advances env p t ds

end

mutual

theorem fillNamespace_advances (env : Env) (p : Place) (s : State) : (d : NamespaceDecl) →
    Outcome (Advances D .filling) (fun _ _ => True) (fillNamespace env p d) s
  | ⟨decls, classes, namespaces⟩ => by
    unfold fillNamespace
    refine .get_bind ?_
    split
    · exact .pure _
    · refine .andThen (addMembers_advances _ _ decls) fun _ t => ?_
      exact .andThen (fillClasses_advances env _ t classes) fun _ u =>
        fillNamespaces_advances env _ u namespaces

theorem fillNamespaces_advances (env : Env) (p : Place) (s : State) :
    (l : List NamespaceDecl) →
      Outcome (Advances D .filling) (fun _ _ => True) (fillNamespaces env p l) s
  | [] => .pure _
  | d :: ds =>
    .andThen (fillNamespace_advances env p s d) fun _ t => fillNamespaces_advances env p t ds

end

theorem fillAll_advances (env : Env) (s : State) :
    Outcome (Advances D .filling) (fun _ _ => True) (fillAll env) s := by
  refine .andThen (fillClasses_advances env {} s _) fun _ t => ?_
  refine .andThen (fillNamespaces_advances env {} t _) fun _ u => .modify ?_
  exact .foldl (fun u f _ => addGlobalFunction_advances env u f) u

/-! ### Completion -/

/-- What is completed before the entries are checked. -/
def settled (env : Env) (s : State) : State :=
  let s := settleAll env s
  if env.config.addDefaultConstructors then addImplicitAll s else s

theorem settled_advances (env : Env) (s : State) : Advances D .completing s (settled env s) := by
  have hsettle : Advances D .completing s (settleAll env s) := settleAll_advances env s
  unfold settled
  dsimp only
  split
  · exact hsettle.trans (addImplicitAll_advances _)
  · exact hsettle

theorem extends_checkEntry (s : State) (e : Entry) : s.db.Extends (checkEntry s e).db := by
  by_cases he : e.kind = .enumeration
  · rw [checkEntry_of_enum he]
    split
    · exact .setCodegen s.db e noCode
    · exact .refl s.db
  · rw [db_checkEntry_of_ne he]
    exact .refl s.db

theorem extends_foldl_checkEntry (l : List Entry) (s : State) :
    s.db.Extends (l.foldl checkEntry s).db :=
  List.foldlRecOn (motive := fun t : State => s.db.Extends t.db) l checkEntry (.refl s.db)
    fun t ht e _ => ht.trans (extends_checkEntry t e)

theorem extends_checkEntries (s : State) : s.db.Extends (checkEntries s).db :=
  extends_foldl_checkEntry s.db.entries s

theorem complete_advances (env : Env) (s : State) :
    Advances D .completing (checkEntries (settled env s)) (complete env s) := by
  have hmarked := (markHashable_advances (D := D) (k := .completing) env
    (checkEntries (settled env s))).trans (markPrintable_advances env _)
  exact (hmarked.trans (addOperators_advances env _)).warnAll _

theorem orderInner_advances {k : Stage} (classes : List ClassId) :
    Outcome (Advances D k) (fun _ _ => True) (orderInner classes) s := by
  refine Outcome.forM fun i _ t _ => .get_bind ?_
  dsimp only
  split
  · split
    · exact .set ((Advances.refl t).edit i fun _ => ⟨rfl, rfl, fun _ _ => rfl⟩)
    · exact .throw trivial
  · exact .pure _

theorem fillGlobalAdded_advances {k : Stage} :
    Outcome (Advances D k) (fun _ _ => True) (fillGlobalAdded env) s := by
  refine .get_bind (Outcome.forM fun a _ t _ => ?_)
  refine .andThen (makeAdded_advances none a) fun f u => .modify ?_
  exact (Advances.refl u).aside rfl rfl rfl rfl

end

/-- Settling policies changes nothing else about a class and its functions. -/
theorem settlePoliciesAll_frame (classes : List ClassId) (s : State) (i : ClassId) :
    let c := (settlePoliciesAll classes s).store.get i
    c.head = (s.store.get i).head ∧ c.attrs = (s.store.get i).attrs ∧
      c.enums = (s.store.get i).enums ∧ c.fields = (s.store.get i).fields ∧
      c.functions.map (·.unsettled) = (s.store.get i).functions.map (·.unsettled) := by
  refine List.foldlRecOn (motive := fun t : ClassStore => (t.get i).head = (s.store.get i).head ∧
    (t.get i).attrs = (s.store.get i).attrs ∧ (t.get i).enums = (s.store.get i).enums ∧
    (t.get i).fields = (s.store.get i).fields ∧
    (t.get i).functions.map (·.unsettled) = (s.store.get i).functions.map (·.unsettled))
    classes _ ⟨rfl, rfl, rfl, rfl, rfl⟩ fun t ht j _ => ?_
  obtain ⟨hhead, hattrs, henums, hfields, hfunctions⟩ := ht
  unfold settleClassPolicies
  rw [ClassStore.get_modify]
  split
  · refine ⟨hhead, hattrs, henums, hfields, ?_⟩
    rw [← hfunctions, List.map_map]
    rfl
  · exact ⟨hhead, hattrs, henums, hfields, hfunctions⟩

/-! ### The whole assembly -/

/-- A successful assembly up to the policies, by the states between its stages. The entries are
checked halfway through the last stage. -/
structure Course (env : Env) (s₀ s₁ s₂ s₃ s₄ : State) : Prop where
  declares : declareAll env s₀ = .ok () s₁
  fills : fillAll env s₁ = .ok () s₂
  registry : s₃.registry = s₁.registry
  opens : Opens env env.header.enumsIn (visits env s₀) s₀ s₁
  filling : Advances env.header.enumsIn .filling s₁ s₂
  completing : Advances env.header.enumsIn .completing s₂ s₃
  finishing : Advances env.header.enumsIn .completing (checkEntries s₃) s₄

/-- What every step keeps, whatever its stage, holds until the policies are settled. -/
theorem Course.keeps {env : Env} {s₀ s₁ s₂ s₃ s₄ : State} (h : Course env s₀ s₁ s₂ s₃ s₄)
    {I : State → Prop} (hstep : ∀ {k s t}, Step env.header.enumsIn s k t → I s → I t)
    (hopen : ∀ {s} key c, I s → I (openScope key c s))
    (hcheck : ∀ {s}, I s → I (checkEntries s)) (h₀ : I s₀) : I s₄ :=
  h.finishing.keeps hstep (hcheck (h.completing.keeps hstep (h.filling.keeps hstep
    (h.opens.declaring.keeps hstep hopen h₀))))

theorem run_course {env : Env} {classes : List ClassId} {s₀ s : State}
    (h : run env s₀ = .ok classes s) :
    ∃ s₁ s₂ s₃ s₄, Course env s₀ s₁ s₂ s₃ s₄ ∧ s = settlePoliciesAll classes s₄ := by
  obtain ⟨s₁, s₂, t, u, hdeclare, hfill, -, hinner, hadded, rfl⟩ := run_stages h
  refine ⟨s₁, s₂, settled env s₂, u, ⟨hdeclare, hfill, ?_, ?_, ?_, ?_, ?_⟩, rfl⟩
  · have hsettled : (settleAll env s₂).registry = s₁.registry :=
      ((Settling.of_quiet ((fillAll_quiet env s₁).of_ok hfill)).trans
        (settleAll_settling env s₂)).registry
    unfold settled
    dsimp only
    split
    · exact hsettled
    · exact hsettled
  · exact declareAll_opens env s₀ () s₁ hdeclare
  · exact (fillAll_advances env s₁).of_ok hfill
  · exact settled_advances env s₂
  · have hcompleted : Advances env.header.enumsIn .completing (checkEntries (settled env s₂))
        (complete env s₂) := complete_advances env s₂
    have hlinked := hcompleted.trans (linkCopies_advances classes _)
    have hordered := hlinked.trans ((orderInner_advances classes).of_ok hinner)
    exact hordered.trans (fillGlobalAdded_advances.of_ok hadded)

end BindingModel.Assembly
