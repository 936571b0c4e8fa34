import BindingModel.Proofs.Assembly.Arguments

/-! Each member that a class has taken over is the instance of one member of its template, with the
arguments that its only base is written with. -/
namespace BindingModel
open Api

namespace Assembly

/-! ### Copies -/

/-- The instance of a function in a class of that name. -/
structure CopyOf (bindings : List BoundType) (maxDepth : Nat) (className : String)
    (f g : Function) : Prop where
  name : g.name = if f.isConstructor then className else f.name
  kind : g.kind = f.kind
  returned : f.returnType?.mapM (BoundType.instantiate bindings maxDepth) = .ok g.returnType?
  types : List.Forall₂ (BoundType.Becomes bindings maxDepth) f.types g.types

/-- The policies do not count. -/
theorem CopyOf.congr {bindings : List BoundType} {maxDepth : Nat} {className : String}
    {f f' g g' : Function} (h : CopyOf bindings maxDepth className f g)
    (hf : f'.unsettled = f.unsettled) (hg : g'.unsettled = g.unsettled) :
    CopyOf bindings maxDepth className f' g' := by
  have hconstructor : f'.unsettled.isConstructor = f.unsettled.isConstructor :=
    congrArg Function.isConstructor hf
  have hname : f'.unsettled.name = f.unsettled.name := congrArg Function.name hf
  have hkind : f'.unsettled.kind = f.unsettled.kind := congrArg Function.kind hf
  have hreturns : f'.unsettled.returnType? = f.unsettled.returnType? :=
    congrArg Function.returnType? hf
  have htypes : f'.unsettled.types = f.unsettled.types := congrArg Function.types hf
  have hname' : g'.unsettled.name = g.unsettled.name := congrArg Function.name hg
  have hkind' : g'.unsettled.kind = g.unsettled.kind := congrArg Function.kind hg
  have hreturns' : g'.unsettled.returnType? = g.unsettled.returnType? :=
    congrArg Function.returnType? hg
  have htypes' : g'.unsettled.types = g.unsettled.types := congrArg Function.types hg
  refine ⟨?_, hkind'.trans (h.kind.trans hkind.symm), ?_, ?_⟩
  · show g'.unsettled.name = if f'.unsettled.isConstructor then className else f'.unsettled.name
    rw [hname', hconstructor, hname]
    exact h.name
  · show f'.unsettled.returnType?.mapM _ = Except.ok g'.unsettled.returnType?
    rw [hreturns, hreturns']
    exact h.returned
  · show List.Forall₂ _ f'.unsettled.types g'.unsettled.types
    rw [htypes, htypes']
    exact h.types

/-- The instance of a field. -/
structure FieldCopyOf (bindings : List BoundType) (maxDepth : Nat) (f g : Field) : Prop where
  name : g.name = f.name
  type : BoundType.instantiate bindings maxDepth f.type = .ok g.type

theorem copyOf_inherited {bindings : List BoundType} {maxDepth : Nat} {f g : Function}
    (hg : instantiateFunction bindings maxDepth f = .ok g) (i : ClassId) (c template : BoundClass)
    (mods : List FunctionMod) :
    CopyOf bindings maxDepth c.name f (inherited i c template mods g) := by
  have htypes := becomes_inherited hg i c template mods
  have hreturn := (types_adaptFunction i c g).1
  have hname := name_adaptFunction (i := i) c g
  have hkind : (adaptFunction i c g).kind = g.kind := by
    unfold adaptFunction
    dsimp only
    split <;> rfl
  obtain ⟨hsame, -⟩ := instantiateFunction_made hg
  have hconstructor : g.isConstructor = f.isConstructor := by
    unfold Function.isConstructor
    rw [hsame]
  unfold takenName at hname
  rw [hconstructor] at hname
  unfold instantiateFunction at hg
  obtain ⟨returnType?, hreturned, hg⟩ := Error.bind_eq_ok hg
  obtain ⟨args, -, hg⟩ := Error.bind_eq_ok hg
  cases hg
  refine ⟨hname, hkind.trans hsame, ?_, htypes⟩
  show _ = Except.ok (adaptFunction i c _).returnType?
  rw [hreturn]
  exact hreturned

/-- Of the members of a template one after another each adds its copy, or none. What a state says
of copies stays true of those that were made before. -/
theorem foldl_copies {α : Type} {r : State → α → α → Prop} {P : State → Prop}
    (members : State → List α) {step : State → α → State} {l : List α}
    (hP : ∀ s, ∀ a ∈ l, P s → P (step s a))
    (hkept : ∀ s, ∀ a ∈ l, P s → ∀ x y, r s x y → r (step s a) x y)
    (hstep : ∀ s, ∀ a ∈ l, P s → members (step s a) = members s ∨
      ∃ b, members (step s a) = members s ++ [b] ∧ r (step s a) a b) {s : State} (hs : P s) :
    ∃ as bs, as.Sublist l ∧ members (l.foldl step s) = members s ++ bs ∧
      List.Forall₂ (r (l.foldl step s)) as bs := by
  induction l generalizing s with
  | nil => exact ⟨[], [], .slnil, (List.append_nil _).symm, .nil⟩
  | cons a l ih =>
    obtain ⟨as, bs, hsub, hmembers, hcopies⟩ :=
      ih (fun s b hb => hP s b (List.mem_cons_of_mem a hb))
        (fun s b hb => hkept s b (List.mem_cons_of_mem a hb))
        (fun s b hb => hstep s b (List.mem_cons_of_mem a hb)) (hP s a List.mem_cons_self hs)
    rw [List.foldl_cons]
    rcases hstep s a List.mem_cons_self hs with hsame | ⟨b, hnew, hb⟩
    · exact ⟨as, bs, hsub.cons a, by rw [hmembers, hsame], hcopies⟩
    · have hlast : P (l.foldl step (step s a)) ∧ r (l.foldl step (step s a)) a b := by
        refine List.foldlRecOn (motive := fun u => P u ∧ r u a b) l step
          ⟨hP s a List.mem_cons_self hs, hb⟩ fun u hu x hx => ?_
        have hx := List.mem_cons_of_mem a hx
        exact ⟨hP u x hx hu.1, hkept u x hx hu.1 a b hu.2⟩
      refine ⟨a :: as, b :: bs, hsub.cons_cons a, ?_, .cons hlast.2 hcopies⟩
      rw [hmembers, hnew, List.append_assoc]
      rfl

section
variable (env : Env) (i : ClassId) (template : BoundClass) (bindings : List BoundType)

theorem functions_foldl_inheritFunction (l : List Function) (s : State) :
    ∃ fs gs, fs.Sublist l ∧
      ((l.foldl (inheritFunction env i template bindings) s).store.get i).functions =
        (s.store.get i).functions ++ gs ∧
      List.Forall₂ (CopyOf bindings env.config.maxTemplateDepth (s.store.get i).name) fs gs := by
  refine foldl_copies
    (r := fun _ => CopyOf bindings env.config.maxTemplateDepth (s.store.get i).name)
    (P := fun t => (t.store.get i).name = (s.store.get i).name)
    (fun t => (t.store.get i).functions) (fun t f _ ht => ?_) (fun _ _ _ _ _ _ h => h)
    (fun t f _ ht => ?_) rfl
  · exact ((inheritFunction_steady env i template bindings t f).name i).trans ht
  · rcases inheritFunction_cases env i template bindings t f with ⟨-, hstore⟩ | ⟨g, mods, -, hg, hstore⟩
    · exact .inl (by rw [hstore])
    · rw [hstore, ClassStore.get_modify]
      split
      · exact .inr ⟨_, rfl, ht ▸ copyOf_inherited hg i (t.store.get i) template mods⟩
      · exact .inl rfl

theorem fields_inheritFunction (s : State) (f : Function) (c : ClassId) :
    ((inheritFunction env i template bindings s f).store.get c).fields =
      (s.store.get c).fields := by
  rcases inheritFunction_cases env i template bindings s f with ⟨-, hstore⟩ | ⟨g, mods, -, -, hstore⟩
  · rw [hstore]
  · rw [hstore, ClassStore.get_modify]
    split <;> rfl

theorem fields_foldl_inheritField (l : List Field) (s : State) :
    ∃ fs gs, fs.Sublist l ∧
      ((l.foldl (inheritField env i template bindings) s).store.get i).fields =
        (s.store.get i).fields ++ gs ∧
      List.Forall₂ (FieldCopyOf bindings env.config.maxTemplateDepth) fs gs := by
  refine foldl_copies (r := fun _ => FieldCopyOf bindings env.config.maxTemplateDepth)
    (P := fun _ => True) (fun t => (t.store.get i).fields)
    (fun _ _ _ _ => trivial) (fun _ _ _ _ _ _ h => h) (fun t f _ _ => ?_) trivial
  unfold inheritField
  dsimp only
  split
  · exact .inl rfl
  · split
    · refine .inl ?_
      unfold warnUninstantiable
      split <;> rfl
    · next type htype =>
      show ((t.store.modify i _).get i).fields = _ ∨ ∃ b, ((t.store.modify i _).get i).fields = _ ∧ _
      rw [ClassStore.get_modify]
      split
      · exact .inr ⟨_, rfl, rfl, htype⟩
      · exact .inl rfl

end

theorem fields_bindInstance (i t : ClassId) (written : TypeExpr) (s : State) (c : ClassId) :
    ((bindInstance i t written s).2.store.get c).fields = (s.store.get c).fields := by
  unfold bindInstance
  rw [store_bindArguments]
  show ((s.store.modify i _).get c).fields = _
  rw [ClassStore.get_modify]
  split
  · split <;> rfl
  · rfl

/-- Behind its own members a class has copies of members of a template. -/
structure HasCopies (bindings : List BoundType) (maxDepth : Nat)
    (own template c : BoundClass) : Prop where
  functions : ∃ fs gs, fs.Sublist template.functions ∧ c.functions = own.functions ++ gs ∧
    List.Forall₂ (CopyOf bindings maxDepth own.name) fs gs
  fields : ∃ fs gs, fs.Sublist template.fields ∧ c.fields = own.fields ++ gs ∧
    List.Forall₂ (FieldCopyOf bindings maxDepth) fs gs

/-- The template may have got further members since. -/
theorem HasCopies.mono {bindings : List BoundType} {maxDepth : Nat}
    {own template template' c c' : BoundClass} (h : HasCopies bindings maxDepth own template c)
    (hfunctions : template.functions <+: template'.functions)
    (hfields : template.fields <+: template'.fields) (hsame : c'.functions = c.functions)
    (hsame' : c'.fields = c.fields) : HasCopies bindings maxDepth own template' c' := by
  obtain ⟨⟨fs, gs, hsub, hgs, hcopies⟩, fs', gs', hsub', hgs', hcopies'⟩ := h
  exact ⟨⟨fs, gs, hsub.trans hfunctions.sublist, hsame.trans hgs, hcopies⟩,
    fs', gs', hsub'.trans hfields.sublist, hsame'.trans hgs', hcopies'⟩

theorem inheritTemplate_copies {i : ClassId} {s : State} (hlt : i < s.store.classes.size)
    (env : Env) (t : ClassId) (written : TypeExpr) :
    HasCopies (bindInstance i t written s).1 env.config.maxTemplateDepth (s.store.get i)
      (s.store.get t) ((inheritTemplate env i t written s).store.get i) := by
  have hname := (bindInstance_steady i t written s).name i
  obtain ⟨fs, gs, hsub, hgs, hcopies⟩ := functions_foldl_inheritFunction env i (s.store.get t)
    (bindInstance i t written s).1 (s.store.get t).functions (bindInstance i t written s).2
  obtain ⟨fs', gs', hsub', hgs', hcopies'⟩ := fields_foldl_inheritField env i (s.store.get t)
    (bindInstance i t written s).1 (s.store.get t).fields (takeFunctions env i t written s)
  rw [hname] at hcopies
  rw [functions_bindInstance] at hgs
  have hfields : ((takeFunctions env i t written s).store.get i).fields =
      (s.store.get i).fields := by
    refine Eq.trans ?_ (fields_bindInstance i t written s i)
    exact List.foldlRecOn (motive := fun u : State => (u.store.get i).fields =
      ((bindInstance i t written s).2.store.get i).fields) _ _ rfl
      fun u hu f _ => (fields_inheritFunction env i _ _ u f i).trans hu
  rw [hfields] at hgs'
  refine ⟨⟨fs, gs, hsub, ?_, hcopies⟩, fs', gs', hsub', ?_, hcopies'⟩
  · rw [functions_inheritTemplate hlt]
    exact hgs
  · rw [get_inheritTemplate hlt, BoundClass.fields_eq_of_core (core_takeLinks _ t _ _)]
    exact hgs'

/-! ### All classes -/

/-- The class is an instance with bindings of its arguments as they were seen in `u`. -/
structure InstanceOf (env : Env) (u s : State) (c x : ClassId) (written : TypeExpr)
    (bindings : List BoundType) : Prop where
  base : Instantiates s.store c x written
  binds : List.Forall₂ (Binds u c x) (written.args.filter (hasEntry u c x)) bindings
  copies : HasCopies bindings env.config.maxTemplateDepth (u.store.get c) (s.store.get x)
    (s.store.get c)

/-- Since `u` classes have got members of the templates that they are instances of, and no others. -/
structure Copied (env : Env) (u s : State) : Prop where
  scopes : SameScopes u s
  own : ∀ c, (s.store.get c).templateBase? = none →
    (s.store.get c).functions = (u.store.get c).functions ∧
      (s.store.get c).fields = (u.store.get c).fields
  instances : ∀ c x, (s.store.get c).templateBase? = some x →
    ∃ written bindings, InstanceOf env u s c x written bindings

namespace Copied
variable {env : Env} {u s t : State}

theorem initial (hnone : ∀ c, (u.store.get c).templateBase? = none) : Copied env u u := by
  refine ⟨.of_store rfl rfl, fun _ _ => ⟨rfl, rfl⟩, fun c x hx => ?_⟩
  rw [hnone c] at hx
  cases hx

/-- Links other than those to templates do not count. -/
theorem frame (h : Copied env u s) (hscopes : SameScopes s t)
    (hcore : ∀ c, (t.store.get c).core = (s.store.get c).core)
    (hbase : ∀ c, (t.store.get c).templateBase? = (s.store.get c).templateBase?) :
    Copied env u t := by
  have hfunctions := fun c => BoundClass.functions_eq_of_core (hcore c)
  have hfields := fun c => BoundClass.fields_eq_of_core (hcore c)
  refine ⟨h.scopes.trans hscopes, fun c hc => ?_, fun c x hx => ?_⟩
  · rw [hbase] at hc
    rw [hfunctions, hfields]
    exact h.own c hc
  · rw [hbase] at hx
    obtain ⟨written, bindings, hinstance, hbinds, hcopies⟩ := h.instances c x hx
    refine ⟨written, bindings, hinstance.of_head hscopes.head, hbinds,
      hcopies.mono ?_ ?_ (hfunctions c) (hfields c)⟩
    · rw [hfunctions]
    · rw [hfields]

theorem addBase (h : Copied env u s) (i : ClassId) (primary : Bool) (b : ClassId) :
    Copied env u (addBase i primary b s) :=
  h.frame (.of_settling (addBase_settling i primary b s) (.refl s.db))
    (fun c => (core_addBase i primary b s c).1) fun c => (core_addBase i primary b s c).2

theorem inheritTemplate (h : Copied env u s) {i t : ClassId} {written : TypeExpr}
    (hlt : i < s.store.classes.size) (hnone : (s.store.get i).templateBase? = none)
    (hbase : Instantiates s.store i t written) :
    Copied env u (inheritTemplate env i t written s) := by
  have hscopes : SameScopes s (Assembly.inheritTemplate env i t written s) :=
    .of_settling (inheritTemplate_settling env i t written s)
      (inheritTemplate_evolves (h := {}) env i t written s).db
  have hcopies := inheritTemplate_copies hlt env t written
  have hlink := templateBase?_inheritTemplate env t written hlt hnone
  have hothers : ∀ c, c ≠ i →
      (Assembly.inheritTemplate env i t written s).store.get c = s.store.get c :=
    fun _ => get_inheritTemplate_of_ne env i t written s
  have hmore := prefix_inheritTemplate env t written hlt
  refine ⟨h.scopes.trans hscopes, fun c hc => ?_, fun c x hx => ?_⟩
  · by_cases hci : c = i
    · rw [hci, hlink] at hc
      cases hc
    · rw [hothers c hci] at hc ⊢
      exact h.own c hc
  · by_cases hci : c = i
    · subst hci
      obtain rfl := Option.some.inj (hlink.symm.trans hx)
      refine ⟨written, _, hbase.of_head hscopes.head, bindInstance_binds h.scopes c t written, ?_⟩
      obtain ⟨hfunctions, hfields⟩ := h.own c hnone
      have hname : (s.store.get c).name = (u.store.get c).name :=
        congrArg Entry.localName (BoundClass.entry_eq_of_head (h.scopes.head c))
      obtain ⟨⟨fs, gs, hsub, hgs, hnamed⟩, hrest⟩ := hcopies.mono (hmore t).1 (hmore t).2 rfl rfl
      rw [hfunctions] at hgs
      rw [hfields] at hrest
      rw [hname] at hnamed
      exact ⟨⟨fs, gs, hsub, hgs, hnamed⟩, hrest⟩
    · rw [hothers c hci] at hx
      obtain ⟨written', bindings, hinstance, hbinds, hold⟩ := h.instances c x hx
      refine ⟨written', bindings, hinstance.of_head hscopes.head, hbinds,
        hold.mono (hmore x).1 (hmore x).2 ?_ ?_⟩ <;> rw [hothers c hci]

end Copied

theorem settleAll_copied {env : Env} {s : State} (h : Sound env [] s)
    (hnone : ∀ c, (s.store.get c).templateBase? = none) : Copied env s (settleAll env s) := by
  have hkept : Kept env (Copied env s) := by
    refine ⟨fun {t v} ht _ hstore hentries => ?_, fun i primary b ht => ht.addBase i primary b,
      fun t written hlt hnone hbase ht => ht.inheritTemplate hlt hnone hbase⟩
    refine ht.frame (.of_store hstore hentries) (fun c => ?_) fun c => ?_ <;> rw [hstore]
  exact settleAll_keeps hkept h (.initial hnone)

/-- What a class of a finished model took over from its template: each member that it has since its
bases were resolved is the copy of a member of the template. -/
theorem copies_of_assemble {config : Config} {header : Header} {db : Database} {m : Model}
    (hm : (assemble config header db).result = .ok m) :
    ∃ t u, declareAll (.make config header) { db } = .ok () t ∧
      fillAll (.make config header) t = .ok () u ∧
      (∀ c, (m.store.get c).ParamsNumbered) ∧
      ∀ c x, (m.store.get c).templateBase? = some x → ∃ written bindings,
        Instantiates m.store c x written ∧
        List.Forall₂ (Binds u c x) (written.args.filter (hasEntry u c x)) bindings ∧
        let own := u.store.get c
        let resolved := (settleAll (.make config header) u).store.get c
        (∀ k, own.functions.length ≤ k → k < resolved.functions.length →
          ∃ g, (m.store.get c).functions[k]? = some g ∧ ∃ f ∈ (m.store.get x).functions,
            CopyOf bindings config.maxTemplateDepth (m.store.get c).name f g) ∧
        ∀ k, own.fields.length ≤ k → k < resolved.fields.length →
          ∃ g, (m.store.get c).fields[k]? = some g ∧ ∃ f ∈ (m.store.get x).fields,
            FieldCopyOf bindings config.maxTemplateDepth f g := by
  obtain ⟨classes, s, hrun, rfl⟩ := assemble_eq_ok.mp hm
  obtain ⟨t, u, hdeclare, hfill, hquiet, harranged, hevolves⟩ := run_arranged hrun
  have hdeclared := declareAll_adds (.make config header) { db } () t hdeclare
  have hpending := (hdeclared.pending (Pending.initial db)).quiet hquiet
  have hcopied : Copied (.make config header) u (settleAll (.make config header) u) :=
    settleAll_copied (Sound.initial hpending) fun c => (hpending.unlinked c).templateBase?
  have hkept := hevolves.membersKept
  have hhead : ∀ c, (s.store.get c).head =
      ((settleAll (.make config header) u).store.get c).head := harranged.head
  have hparams : ∀ c, (s.store.get c).ParamsNumbered := by
    refine ((run_outcome (.make config header) { db }).of_ok hrun).paramsNumbered fun c => ?_
    exact .of_nil rfl
  refine ⟨t, u, hdeclare, hfill, hparams, fun c x hx => ?_⟩
  have hx : (s.store.get c).templateBase? = some x := hx
  rw [harranged.templateBase?] at hx
  obtain ⟨written, bindings, hbase, hbinds, ⟨fs, gs, hsub, hgs, hcopies⟩,
    fs', gs', hsub', hgs', hcopies'⟩ := hcopied.instances c x hx
  have hname : (u.store.get c).name = (s.store.get c).name := by
    have hentry := BoundClass.entry_eq_of_head ((hhead c).trans (hcopied.scopes.head c))
    exact congrArg Entry.localName hentry.symm
  rw [hname] at hcopies
  refine ⟨written, bindings, hbase.of_head hhead, hbinds, fun k hk hlt => ?_, fun k hk hlt => ?_⟩
  · rw [hgs] at hlt
    obtain ⟨g, hg, hindex⟩ := exists_mem_of_length_le hk hlt
    obtain ⟨f, hf, hcopy⟩ := Error.exists_of_mem_forall₂ hcopies hg
    obtain ⟨g', hg', hsame⟩ := (hkept c).unsettled (hgs ▸ hindex)
    obtain ⟨j, hj⟩ := List.getElem?_of_mem (hsub.subset hf)
    obtain ⟨f', hf', hsame'⟩ := (hkept x).unsettled hj
    exact ⟨g', hg', f', List.mem_of_getElem? hf', hcopy.congr hsame' hsame⟩
  · rw [hgs'] at hlt
    obtain ⟨g, hg, hindex⟩ := exists_mem_of_length_le hk hlt
    obtain ⟨f, hf, hcopy⟩ := Error.exists_of_mem_forall₂ hcopies' hg
    exact ⟨g, (hkept c).field (hgs' ▸ hindex), f, (hkept x).fields.subset (hsub'.subset hf), hcopy⟩

end Assembly
end BindingModel
