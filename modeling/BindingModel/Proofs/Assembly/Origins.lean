import BindingModel.Proofs.Assembly.ModsFrame

/-! Whatever each way to get a function ensures holds of all functions of a finished model. -/
namespace BindingModel
open Api Header

namespace Assembly

/-! ### Inheritance -/

/-- The state came about from the rules alone, and all functions have the property as far as it says
which modifications will be there. -/
structure Reached (env : Env) (db used : Database) (Q : BoundClass → Function → Prop) (s : State) :
    Prop where
  functions : s.db.KeepsMods used → s.store.AllFunctions Q
  evolves : Evolves env.header { db } s

/-- The state came about from the rules alone, no modification is added any more, and all functions
have the property. -/
structure Completed (env : Env) (db used : Database) (Q : BoundClass → Function → Prop)
    (s : State) : Prop where
  functions : s.store.AllFunctions Q
  evolves : Evolves env.header { db } s
  mods : s.db.SameMods used

section
variable {env : Env} {db used : Database} {Q : BoundClass → Function → Prop}
  (hQ : Upheld env db used Q)
include hQ

theorem Upheld.inheritTemplate {s : State} {i t : ClassId} {written : TypeExpr}
    (h : Reached env db used Q s) (hlt : i < s.store.classes.size)
    (hinstance : Instantiates s.store i t written) :
    Reached env db used Q (inheritTemplate env i t written s) := by
  have hevolves := inheritTemplate_evolves (h := env.header) env i t written s
  refine ⟨fun hused c g hg => ?_, h.evolves.trans hevolves⟩
  have hfunctions := h.functions ((Database.KeepsMods.of_grows hevolves.db).trans hused)
  by_cases hc : c = i
  · subst hc
    have hhead := ((inheritTemplate_settling env c t written s).gains c).head
    refine hQ.head hhead ?_
    obtain ⟨fs, gs, hsub, hgs, hcopies⟩ := inheritTemplate_takes h.evolves hlt t written
    rw [hgs] at hg
    rcases List.mem_append.mp hg with hg | hg
    · exact hfunctions c g hg
    · obtain ⟨f, hf, hcopy⟩ := Error.exists_of_mem_forall₂ hcopies hg
      exact hQ.taken (hfunctions t f (hsub.subset hf)) hinstance.namesTemplate (hcopy.mono hused)
  · rw [get_inheritTemplate_of_ne env i t written s hc] at hg ⊢
    exact hfunctions c g hg

theorem Upheld.settleAll {s : State} (hsound : Sound env [] s) (h : Reached env db used Q s) :
    Reached env db used Q (settleAll env s) := by
  have hkept : Kept env (Reached env db used Q) := by
    refine ⟨fun ht hevolves hstore _ => ⟨fun hused => ?_, ht.evolves.trans hevolves⟩,
      fun {u} i primary b ht =>
        ⟨fun hused => ?_, ht.evolves.trans (addBase_evolves i primary b u)⟩,
      fun t written hlt _ hinstance ht => hQ.inheritTemplate ht hlt hinstance⟩
    · rw [hstore]
      exact ht.functions ((Database.KeepsMods.of_grows hevolves.db).trans hused)
    · exact hQ.of_core (ht.functions hused) fun c => (core_addBase i primary b u c).1
  exact settleAll_keeps hkept hsound h

/-! ### Completion -/

theorem addImplicit_upheld {s : ClassStore} (h : s.AllFunctions Q) (i : ClassId) :
    (addImplicit s i).AllFunctions Q := by
  have hmade : (s.modify i fun c => c.addFunction (implicitConstructor i c)).AllFunctions Q :=
    hQ.addFunction h i fun _ => hQ.implicit i _
  have hcopied : ∀ {t : ClassStore}, t.AllFunctions Q → ∀ isPrivate,
      (t.modify i fun c => c.addFunction (implicitCopy i c isPrivate)).AllFunctions Q :=
    fun ht isPrivate => hQ.addFunction ht i fun _ => hQ.implicitCopy i _ isPrivate
  unfold addImplicit
  dsimp only
  split
  · split
    · split
      · exact hcopied hmade _
      · exact hmade
    · split
      · exact hcopied h _
      · exact h
  · exact h

omit hQ in
theorem store_checkEntries (s : State) : (checkEntries s).store = s.store := by
  refine List.foldlRecOn (motive := fun t : State => t.store = s.store) _ checkEntry rfl ?_
  intro t ht e _
  rw [← ht]
  unfold checkEntry State.warnIf
  split
  · split <;> rfl
  · split <;> rfl
  · split
    · exact t.store_warnAll _
    · rfl
  · split <;> rfl
  · rfl

theorem markClassOf_upheld {s : State} (h : s.store.AllFunctions Q) (a : ArgumentDecl)
    (mark : ClassAttr) : (markClassOf env a mark s).store.AllFunctions Q := by
  unfold markClassOf
  split
  · exact hQ.edit h _ fun _ => rfl
  · exact h

theorem markHashable_upheld {s : State} (h : s.store.AllFunctions Q) :
    (markHashable env s).store.AllFunctions Q := by
  refine List.foldlRecOn (motive := fun t : State => t.store.AllFunctions Q) _ _ h ?_
  intro t ht d _
  split
  · exact markClassOf_upheld hQ ht _ _
  · exact ht

theorem markPrintable_upheld {s : State} (h : s.store.AllFunctions Q) :
    (markPrintable env s).store.AllFunctions Q := by
  refine List.foldlRecOn (motive := fun t : State => t.store.AllFunctions Q) _ _ h ?_
  intro t ht d _
  split
  · split
    · exact markClassOf_upheld hQ ht _ _
    · exact ht
  · exact ht

theorem addOperator_upheld {s : State} (h : Completed env db used Q s) {d : FunctionDecl}
    (hdecl : d ∈ env.header.global.decls.functions ∧ isOperatorName d.name = true) :
    Completed env db used Q (addOperator env s d) := by
  refine ⟨?_, h.evolves.trans (addOperator_evolves env s d), by rw [db_addOperator]; exact h.mods⟩
  unfold addOperator
  split
  · exact h.functions
  · split
    · exact h.functions
    · next home objectFirst hhome =>
      obtain ⟨p, -, hp⟩ := exists_operand_of_operatorHome? hhome
      have hstore := store_judge s env ⟨some home, []⟩ d
      split
      · next g t hjudge =>
        rw [hjudge] at hstore
        have ht : t.store = s.store := hstore
        split
        · exact ht ▸ h.functions
        · refine hQ.addFunction (ht ▸ h.functions) home fun _ => hQ.operator (.editFunctions ?_ _)
          exact operatorOf_judge h.evolves h.mods (lt_size_of_classOfArgument? hp) hdecl hjudge
            (.inl rfl) (fun _ => congrArg (fun u => (ClassStore.get u home).entry) ht.symm) rfl
            objectFirst (types_takeObject objectFirst (d.args.length = 1) g)
      · next t _ ht =>
        rw [ht] at hstore
        exact (hstore : t.store = s.store) ▸ h.functions

theorem addStreamOperator_upheld {s : State} (h : Completed env db used Q s) {d : FunctionDecl}
    (hdecl : d ∈ env.header.global.decls.functions ∧ isOperatorName d.name = true) :
    Completed env db used Q (addStreamOperator env s d) := by
  refine ⟨?_, h.evolves.trans (addStreamOperator_evolves env s d),
    by rw [db_addStreamOperator]; exact h.mods⟩
  unfold addStreamOperator
  split
  · split
    · next stream streamed _ hstreamed =>
      have hstore := store_judge s env ⟨some streamed, []⟩ d
      split
      · exact h.functions
      · split
        · next g t hjudge =>
          rw [hjudge] at hstore
          have ht : t.store = s.store := hstore
          split
          · next first second hpair =>
            refine hQ.addFunction (ht ▸ h.functions) _ fun _ => hQ.operator (.editFunctions ?_ _)
            refine operatorOf_judge h.evolves h.mods (lt_size_of_classOfArgument? hstreamed) hdecl
              hjudge (.inr rfl) (fun hnormal => by cases hnormal) rfl
              (t.db.generates (t.store.get stream).entry) ((types_reindex _).trans ?_)
            unfold withoutObject
            rw [hpair]
            split <;> rfl
          · exact ht ▸ h.functions
        · next t _ ht =>
          rw [ht] at hstore
          exact (hstore : t.store = s.store) ▸ h.functions
    · exact h.functions
  · exact h.functions

theorem addOperators_upheld {s : State} (h : Completed env db used Q s) :
    Completed env db used Q (addOperators env s) := by
  have hbinary := List.foldlRecOn (motive := Completed env db used Q)
    (operatorsNamed env.header.global.decls binaryOperators) (addOperator env) h
    fun t ht d hd => addOperator_upheld hQ ht
      (declared_of_operatorsNamed (List.subset_append_left _ _) hd)
  exact List.foldlRecOn (motive := Completed env db used Q)
    (operatorsNamed env.header.global.decls streamOperators) (addStreamOperator env) hbinary
    fun t ht d hd => addStreamOperator_upheld hQ ht
      (declared_of_operatorsNamed (List.subset_append_right _ _) hd)

theorem complete_upheld {s : State} (h : Completed env db used Q (settleAll env s)) :
    (complete env s).store.AllFunctions Q := by
  have himplicit : Completed env db used Q (if env.config.addDefaultConstructors then
      addImplicitAll (settleAll env s) else settleAll env s) := by
    split
    · refine ⟨?_, h.evolves.trans (addImplicitAll_evolves _), h.mods⟩
      exact List.foldlRecOn (motive := fun t : ClassStore => t.AllFunctions Q) _ addImplicit
        h.functions fun t ht i _ => addImplicit_upheld hQ ht i
    · exact h
  have hentries := himplicit.evolves.trans (checkEntries_evolves _)
  have hchecked := himplicit.functions
  have hmods := (sameMods_checkEntries _).symm.trans himplicit.mods
  rw [← store_checkEntries] at hchecked
  rw [← db_markHashable env, ← db_markPrintable env] at hmods
  have hmarked : Completed env db used Q _ :=
    ⟨markPrintable_upheld hQ (markHashable_upheld hQ hchecked),
      (hentries.trans (markHashable_evolves env _)).trans (markPrintable_evolves env _), hmods⟩
  unfold complete checkMods
  rw [State.store_warnAll]
  exact (addOperators_upheld hQ hmarked).functions

/-! ### What follows the sorting -/

theorem linkCopies_upheld {s : State} (h : s.store.AllFunctions Q) (classes : List ClassId) :
    (linkCopies classes s).store.AllFunctions Q := by
  refine List.foldlRecOn (motive := fun t : State => t.store.AllFunctions Q) classes _ h ?_
  intro t ht i _
  refine List.foldlRecOn (motive := fun t : State => t.store.AllFunctions Q) _ _ ?_ ?_
  · show (markClonable _ t.store i).AllFunctions Q
    unfold markClonable
    split
    · exact hQ.edit ht i fun _ => rfl
    · exact ht
  · intro u hu k _
    unfold addConversion
    split
    · exact hu
    · split
      · exact hu
      · split
        · exact hQ.edit hu _ fun c => c.core_addExternalConversion _
        · exact hu

theorem orderInner_upheld (classes : List ClassId) (s : State) :
    Outcome (Keeps fun t => t.store.AllFunctions Q) (fun _ _ => True) (orderInner classes) s := by
  refine Outcome.forM fun i _ t _ => .get_bind ?_
  dsimp only
  split
  · split
    · exact .set fun h => hQ.edit h i fun _ => rfl
    · exact .throw trivial
  · exact .pure _

omit hQ in
theorem fillGlobalAdded_upheld (s : State) :
    Outcome (Keeps fun t => t.store.AllFunctions Q) (fun _ _ => True) (fillGlobalAdded env) s := by
  have hwarned : ∀ (t : State) ws, t.store.AllFunctions Q → (t.warnAll ws).store.AllFunctions Q := by
    intro t ws h
    rw [State.store_warnAll]
    exact h
  refine .get_bind (Outcome.forM fun a _ t _ => ?_)
  exact (makeAdded_keeps hwarned none a).andThen fun f u => .modify id

theorem settlePoliciesAll_upheld {s : State} (h : s.store.AllFunctions Q) (classes : List ClassId) :
    (settlePoliciesAll classes s).store.AllFunctions Q := by
  refine List.foldlRecOn (motive := fun t : ClassStore => t.AllFunctions Q) classes _ h ?_
  intro t ht i _
  refine hQ.modify ht i (fun _ => rfl) fun _ g hg => ?_
  obtain ⟨f, hf, rfl⟩ := List.mem_map.mp hg
  exact hQ.settle _ (ht i f hf)

end

/-! ### The whole assembly -/

/-- All functions of the classes of a finished model have a property that each way to get one
ensures, for the modifications that are there in the end. -/
theorem functions_upheld {config : Config} {header : Header} {db : Database} {m : Model}
    (hm : (assemble config header db).result = .ok m) {Q : BoundClass → Function → Prop}
    (hQ : Upheld (.make config header) db (assemble config header db).db Q) :
    m.store.AllFunctions Q := by
  obtain ⟨classes, s, hrun, rfl⟩ := assemble_eq_ok.mp hm
  have hdb : (assemble config header db).db = s.db := by
    rw [db_assemble, hrun]
  obtain ⟨t, u, v, w, hdeclare, hfill, -, hinner, hadded, rfl⟩ := run_stages hrun
  rw [show _ = w.db from hdb] at hQ
  have hdeclared := declareAll_adds (.make config header) { db } () t hdeclare
  have hpending := (hdeclared.pending (Pending.initial db)).quiet ((fillAll_quiet _ t).of_ok hfill)
  have hdrafted : Drafted db Q u :=
    (fillAll_drafts hQ t).of_ok hfill ((declareAll_drafts hQ _).of_ok hdeclare (.initial db Q))
  have hevolves : Evolves header { db } u :=
    ((declareAll_outcome (.make config header) { db }).of_ok hdeclare).trans
      ((fillAll_outcome (.make config header) t).of_ok hfill)
  have hsettled := hQ.settleAll (Sound.initial hpending) ⟨fun _ => hdrafted.functions, hevolves⟩
  obtain ⟨hmods, hkeeps⟩ := sameMods_of_stages hinner hadded
  have hcompleted := complete_upheld hQ ⟨hsettled.functions hkeeps, hsettled.evolves, hmods⟩
  have hlinked := linkCopies_upheld hQ hcompleted classes
  have hordered : v.store.AllFunctions Q := (orderInner_upheld hQ classes _).of_ok hinner hlinked
  have hglobal : w.store.AllFunctions Q := (fillGlobalAdded_upheld v).of_ok hadded hordered
  exact settlePoliciesAll_upheld hQ hglobal classes

end Assembly
end BindingModel
