import BindingModel.Proofs.Assembly.Evolution

/-! The passes of an assembly that cannot fail, one by one: each only makes the state evolve. -/
namespace BindingModel
open Api Header

namespace Assembly
variable {h : Header}

/-! ### Enums -/

theorem registerEnumValues_grows {d : EnumDecl} (hd : h.DeclaresEnum d) {e : Entry}
    (he : e.kind = .enumeration) (scope : String) (db : Database) :
    db.Grows h (registerEnumValues d e scope db) := by
  refine Database.Grows.foldl (fun db v hv => ?_) db
  have hvalue : db.Grows h
      (registerEnumValue db (scope ++ v.name) (toString v.value) (some e)) := by
    unfold registerEnumValue
    split
    · exact .refl db
    · next hnone =>
      rw [Bool.not_eq_true] at hnone
      exact .step (.derive (.enumerator hd hv he scope) (Database.kind_ne_of_named_any hnone))
  dsimp only
  split
  · exact hvalue.trans (.step (.setNullValue e v.name))
  · exact hvalue

theorem enumEntry_evolves (s : State) {d : EnumDecl} (hd : h.DeclaresEnum d) (scope : String) :
    Evolves h s (enumEntry s d scope).2.2 := by
  unfold enumEntry
  dsimp only
  split
  · next hpriv =>
    split
    · exact .refl s
    · next hnone =>
      have hderives : h.Derives (inScope scope d.name) .enumeration := by
        unfold inScope
        split
        · simpa using Derives.privateEnum hd hpriv ""
        · exact .privateEnum hd hpriv (scope ++ "::")
      refine (Evolves.refl s).modifyDatabase
        (f := fun db => (db.add (inScope scope d.name) .enumeration).2)
        (.step (.derive hderives (Database.kind_ne_of_named_any ?_)))
      rw [List.any_eq_false]
      exact List.find?_eq_none.mp hnone
  · split
    · split <;> exact .refl s
    · exact .refl s

theorem scanEnum_evolves (env : Env) (s : State) (enclosing? : Option ClassId) {d : EnumDecl}
    (hd : h.DeclaresEnum d) : Evolves h s (scanEnum env s enclosing? d).2 := by
  unfold scanEnum
  dsimp only
  generalize ((enclosing?.map fun c => (s.store.get c).qualifiedName).getD "") = scope
  have hentry := enumEntry_evolves s hd scope
  generalize enumEntry s d scope = found at hentry
  obtain ⟨found?, name, t⟩ := found
  dsimp only at hentry ⊢
  split
  · split
    · next e =>
      exact (hentry.modifyDatabase (.step (.disable e))).reject .enums _
    · exact hentry.reject .enums _
  · split
    · exact (hentry.warnIf _ _).reject .enums _
    · next e he =>
      have hkind : e.kind = .enumeration := by
        obtain ⟨-, hkind⟩ := Option.filter_eq_some_iff.mp he
        simpa [Entry.isKind] using hkind
      have hpriv : Evolves h s
          (if d.access = .priv then t.modifyDatabase (·.setCodegen e noCode) else t) := by
        split
        · exact hentry.modifyDatabase (.step (.disable e))
        · exact hentry
      exact (hpriv.modifyDatabase (registerEnumValues_grows hd hkind _ _)).applyInclude env e
        d.file?

theorem addEnums_evolves (env : Env) (c : ClassId) {enums : List EnumDecl}
    (hd : ∀ d ∈ enums, h.DeclaresEnum d) (s : State) : Evolves h s (addEnums env c enums s) := by
  refine Evolves.foldl (fun s d hmem => ?_) s
  have hscan := scanEnum_evolves env s (some c) (hd d hmem)
  split
  · next e t h =>
    rw [h] at hscan
    exact hscan.modifyClass c fun _ => rfl
  · next t h =>
    rwa [h] at hscan

theorem addGlobalEnums_evolves (env : Env) (s : State) :
    Evolves env.header s (addGlobalEnums env s) := by
  refine Evolves.foldl (fun s d hmem => ?_) s
  have hscan := scanEnum_evolves env s none (h := env.header) (.here hmem)
  split
  · next e t h =>
    rw [h] at hscan
    split
    · exact hscan.aside rfl rfl rfl
    · exact hscan
  · next t h =>
    rwa [h] at hscan

/-! ### Declarations -/

theorem addProperties_evolves (env : Env) (p : Place) (c : ClassId) (texts : List String)
    (s : State) : Evolves h s (addProperties env p c texts s) := by
  unfold addProperties
  exact (((Evolves.refl s).warnAll _).warnAll _).modifyClass c fun _ => rfl

theorem adopt_evolves (parent c : ClassId) (s : State) : Evolves h s (adopt parent c s) := by
  have hc := (Evolves.refl (h := h) s).modifyClass c (f := (·.setEnclosing parent))
    fun _ => rfl
  have hparent := hc.modifyClass parent (f := fun x => { x with inner := x.inner ++ [c] })
    fun _ => rfl
  exact hparent.addClass c

/-! ### Members -/

theorem addField_evolves (env : Env) (p : Place) (i : ClassId) (s : State) (v : VariableDecl) :
    Evolves h s (addField env p i s v) := by
  unfold addField
  dsimp only
  split
  · exact (Evolves.refl s).addField i _
  · exact .refl s
  · exact (Evolves.refl s).reject .fields _
  · exact (Evolves.refl s).warnIf _ _

theorem judge_evolves (env : Env) (s : State) (p : Place) (f : FunctionDecl) :
    Evolves h s (s.judge env p f).2 := by
  unfold State.judge
  dsimp only
  split
  · exact ((Evolves.refl s).warnAll _).reject .functions _
  · exact (Evolves.refl s).warnAll _

theorem addMember_evolves (env : Env) (path : List String) (i : ClassId) (s : State)
    (d : FunctionDecl) : Evolves h s (addMember env ⟨some i, path⟩ i s d) := by
  have hjudge := judge_evolves (h := h) env s ⟨some i, path⟩ d
  unfold addMember
  dsimp only
  split
  · next t ht =>
    rwa [ht] at hjudge
  · next t ht =>
    rw [ht] at hjudge
    exact hjudge.modifyClass i fun _ => rfl
  · next f t ht =>
    rw [ht] at hjudge
    have hmark : ∀ marks, Evolves h s (t.modifyClass i fun c =>
        { c with attrs := c.attrs.insertAll marks }) :=
      fun _ => hjudge.modifyClass i fun _ => rfl
    split
    · exact hmark _
    · next hkind =>
      split
      · exact hmark _
      · obtain ⟨hdeclaring, himplementing, hlabelled⟩ := judge_made ht
        refine (hmark _).addMember i (SameMaking.belongsTo (.finishMember t _ _) ?_)
        exact ⟨hdeclaring, himplementing, hkind, hlabelled⟩

theorem addGlobalFunction_evolves (env : Env) (s : State) (d : FunctionDecl) :
    Evolves h s (addGlobalFunction env s d) := by
  have hjudge := judge_evolves (h := h) env s {} d
  unfold addGlobalFunction
  split
  · exact .refl s
  · split
    · exact .refl s
    · next entry _ =>
      split
      · next f t ht =>
        rw [ht] at hjudge
        dsimp only
        split
        · obtain ⟨hdeclaring, himplementing, hlabelled⟩ := judge_made ht
          have hedit := SameMaking.editFunctions (t.store.modsOf t.db f) f
          have hincluded := hjudge.applyInclude env entry d.file?
          refine hincluded.step (.addFree ⟨hedit.declaring.trans hdeclaring,
            hedit.implementing.trans himplementing, hedit.args ▸ hlabelled⟩ ?_)
          exact (markedGlobally_judge ht).congr hincluded.db.globalMods hedit.args
            (signature_editFunctions _ f)
        · exact hjudge
      · next t _ ht =>
        rwa [ht] at hjudge

/-! ### Inheritance -/

theorem argumentEntry_evolves (s : State) (c template : ClassId) (name : String) :
    Evolves h s (argumentEntry s c template name).2 := by
  unfold argumentEntry
  split
  · next hname =>
    split
    · exact .refl s
    · next hnone =>
      have hnew : ∀ e ∈ s.db.entries, e.name = name → e.kind ≠ .enumValue := by
        intro e he hname hkind
        unfold Database.findType? at hnone
        have hfun := List.find?_eq_none.mp hnone e (by simp [Database.named, he, hname])
        simp [Entry.isKind, hkind] at hfun
      exact ((Evolves.refl s).modifyDatabase
        (f := fun db => (db.add name (.enumValue name none)).2)
        (.step (.derive (.number hname.1 hname.2) hnew))).modifyDatabase
        (f := (·.setCodegen (s.db.add name (.enumValue name none)).1 noCode)) (.step (.disable _))
  · exact .refl s

theorem bindArguments_evolves (c template : ClassId) (t : TypeExpr) (l : List TypeExpr)
    (s : State) : Evolves h s (bindArguments c template t l s).2 := by
  induction l generalizing s with
  | nil => exact .refl s
  | cons a l ih =>
    have hentry := argumentEntry_evolves (h := h) s c template a.qualifiedName
    unfold bindArguments
    split
    · next u hu =>
      rw [hu] at hentry
      exact (hentry.warn _).trans (ih _)
    · next e u hu =>
      rw [hu] at hentry
      exact hentry.trans (ih u)

theorem warnUninstantiable_evolves (env : Env) (s : State) (u : Uninstantiable) :
    Evolves h s (warnUninstantiable env s u) := by
  unfold warnUninstantiable
  split
  · exact (Evolves.refl s).warn _
  · exact .refl s

theorem inheritFunction_evolves (env : Env) (i : ClassId) (template : BoundClass)
    (bindings : List BoundType) (s : State) {j : ClassId} {f : Function}
    (hf : f ∈ (s.store.get j).functions) :
    Evolves h s (inheritFunction env i template bindings s f) := by
  unfold inheritFunction
  dsimp only
  split
  · split
    · exact warnUninstantiable_evolves env s _
    · next g hg =>
      have hmods : s.db.Grows h
          (((s.store.modsOf s.db f).map
            (·.forSignature (adaptFunction i (s.store.get i) g).signature)).foldl
            (·.addMod (s.store.get i).entry ·) s.db) :=
        .foldl (fun db m _ => .step (.addMod _ m)) s.db
      refine (Evolves.warnAll (.modifyDatabase (.refl s) hmods) _).step
        (.takeOver i (j := j) (f := f) ?_ fun hbelongs => ?_)
      · rw [State.store_warnAll]
        exact hf
      · exact belongsTo_adaptFunction hbelongs hg i _ _ _ _
  · exact .refl s

/-- Taking over a function takes none away. -/
theorem mem_functions_inheritFunction (env : Env) (i : ClassId) (template : BoundClass)
    (bindings : List BoundType) {s : State} (f : Function) {j : ClassId} {g : Function}
    (hg : g ∈ (s.store.get j).functions) :
    g ∈ ((inheritFunction env i template bindings s f).store.get j).functions := by
  unfold inheritFunction
  dsimp only
  split
  · split
    · unfold warnUninstantiable
      split <;> exact hg
    · show g ∈ (((State.warnAll _ _).store.modify i _).get j).functions
      rw [State.store_warnAll, ClassStore.get_modify]
      split
      · exact List.mem_append_left _ hg
      · exact hg
  · exact hg

theorem inheritFunctions_evolves (env : Env) (i : ClassId) (template : BoundClass)
    (bindings : List BoundType) (j : ClassId) {l : List Function} {s : State}
    (hl : ∀ f ∈ l, f ∈ (s.store.get j).functions) :
    Evolves h s (l.foldl (inheritFunction env i template bindings) s) := by
  induction l generalizing s with
  | nil => exact .refl s
  | cons f l ih =>
    refine (inheritFunction_evolves env i template bindings s (hl f List.mem_cons_self)).trans
      (ih fun g hg => ?_)
    exact mem_functions_inheritFunction env i template bindings f
      (hl g (List.mem_cons_of_mem f hg))

theorem inheritField_evolves (env : Env) (i : ClassId) (template : BoundClass)
    (bindings : List BoundType) (s : State) (f : Field) :
    Evolves h s (inheritField env i template bindings s f) := by
  unfold inheritField
  dsimp only
  split
  · exact .refl s
  · split
    · exact warnUninstantiable_evolves env s _
    · exact (Evolves.refl s).addField i _

theorem store_argumentEntry (s : State) (c template : ClassId) (name : String) :
    (argumentEntry s c template name).2.store = s.store := by
  unfold argumentEntry
  split
  · split <;> rfl
  · rfl

theorem store_bindArguments (c template : ClassId) (t : TypeExpr) (l : List TypeExpr)
    (s : State) : (bindArguments c template t l s).2.store = s.store := by
  induction l generalizing s with
  | nil => rfl
  | cons a l ih =>
    have hentry := store_argumentEntry s c template a.qualifiedName
    unfold bindArguments
    split
    · next u hu =>
      rw [hu] at hentry
      exact (ih _).trans hentry
    · next e u hu =>
      rw [hu] at hentry
      exact (ih u).trans hentry

theorem inheritTemplate_evolves (env : Env) (i t : ClassId) (written : TypeExpr) (s : State) :
    Evolves h s (inheritTemplate env i t written s) := by
  have hattrs : ∀ c : BoundClass, (if c.isTypedef then
      { c with attrs := c.attrs.insertAll (inheritedAttrs.filter (s.store.get t).has) }
      else c).core = c.core := by
    intro c
    split <;> rfl
  unfold inheritTemplate
  dsimp only
  have hmarked := (Evolves.refl (h := h) s).modifyClass i hattrs
  have hbind := hmarked.trans (bindArguments_evolves i t written written.args _)
  refine Evolves.modifyClass ((hbind.trans (inheritFunctions_evolves env i _ _ t
    fun f hf => ?_)).trans (.foldl (fun u f _ => inheritField_evolves env i _ _ u f) _)) i
    fun c => ?_
  · rw [store_bindArguments]
    show f ∈ ((s.store.modify i _).get t).functions
    rw [ClassStore.get_modify]
    split
    · split <;> exact hf
    · exact hf
  · have hlinks : ∀ (args : List Entry) (l : List ClassId),
        (l.foldl (·.addInterface ·) (c.setTemplateBase t args)).core = c.core :=
      fun args l => BoundClass.core_addInterfaces (c.setTemplateBase t args) l
    split
    · exact hlinks _ _
    · exact hlinks _ _

section
variable {settle : ClassId → State → State} (hsettle : ∀ i s, Evolves h s (settle i s))
include hsettle

theorem resolveTemplateBase_evolves (env : Env) (i : ClassId) (written : String) (s : State) :
    Evolves h s (resolveTemplateBase env settle i written s) := by
  unfold resolveTemplateBase
  dsimp only
  split
  · refine Evolves.modifyDatabase ?_ (.step (.setBaseContainer _ _))
    exact (((Evolves.refl s).warnAll _).trans (hsettle _ _)).trans
      (inheritTemplate_evolves env i _ _ _)
  · exact ((Evolves.refl s).warnAll _).modifyDatabase (.step (.setBaseContainer _ _))
  · exact ((Evolves.refl s).warnAll _).warn _

omit hsettle in
theorem addBase_evolves (i : ClassId) (primary : Bool) (b : ClassId) (s : State) :
    Evolves h s (addBase i primary b s) := by
  refine (Evolves.refl s).modifyClass i fun c => ?_
  split
  · rfl
  · rw [BoundClass.core_addInterfaces, BoundClass.core_addInterface]

theorem resolveBases_evolves (env : Env) (i : ClassId) (s : State) :
    Evolves h s (resolveBases env settle i s) := by
  unfold resolveBases
  extract_lets c byNames
  have hnames : Evolves h s (byNames s) := by
    refine (((Evolves.refl s).warnAll _).warnIf _ _).trans (.foldl (fun t b _ => ?_) _)
    refine Evolves.trans ?_ (addBase_evolves i _ _ _)
    split
    · exact .refl t
    · exact hsettle _ t
  split
  · split
    · exact resolveTemplateBase_evolves hsettle env i _ s
    · exact hnames
  · exact hnames

end

theorem settleFrom_evolves (env : Env) (n : Nat) (i : ClassId) (s : State) :
    Evolves h s (settleFrom env n i s) := by
  induction n generalizing i s with
  | zero => exact .refl s
  | succ n ih =>
    unfold settleFrom
    split
    · exact .refl s
    · have hmark : Evolves h s { s with settled := i :: s.settled } :=
        (Evolves.refl s).aside rfl rfl rfl
      exact hmark.trans (resolveBases_evolves ih env i _)

theorem settle_evolves (env : Env) (i : ClassId) (s : State) : Evolves h s (settle env i s) :=
  settleFrom_evolves env _ i s

theorem settleAll_evolves (env : Env) (s : State) : Evolves h s (settleAll env s) := by
  refine Evolves.foldl (fun t i _ => ?_) s
  dsimp only
  split
  · exact .refl t
  · exact settle_evolves env i t

/-! ### Completion -/

theorem addImplicitAll_evolves (s : State) : Evolves h s (addImplicitAll s) := by
  refine Evolves.foldlStore (fun t i => ?_) _ s
  have hmake : ∀ u : State, Evolves h u
      { u with store := u.store.modify i fun c => c.addFunction (implicitConstructor i c) } :=
    fun u => (Evolves.refl u).step (.addMember i (belongsTo_implicitConstructor i))
  have hcopy : ∀ (u : State) (isPrivate : Bool), Evolves h u
      { u with store := u.store.modify i fun c => c.addFunction (implicitCopy i c isPrivate) } :=
    fun u isPrivate =>
      (Evolves.refl u).step (.addMember i fun c => belongsTo_implicitCopy i c isPrivate)
  unfold addImplicit
  dsimp only
  split
  · split
    · split
      · exact (hmake t).trans (hcopy _ _)
      · exact hmake t
    · split
      · exact hcopy t _
      · exact .refl t
  · exact .refl t

theorem checkEntries_evolves (s : State) : Evolves h s (checkEntries s) := by
  refine Evolves.foldl (fun t e _ => ?_) s
  unfold checkEntry
  split
  · exact (Evolves.refl t).warnIf _ _
  · exact (Evolves.refl t).warnIf _ _
  · split
    · exact (Evolves.refl t).warnAll _
    · exact .refl t
  · split
    · exact ((Evolves.refl t).modifyDatabase (.step (.disable e))).warn _
    · exact .refl t
  · exact .refl t

theorem markClassOf_evolves (env : Env) (a : ArgumentDecl) (mark : ClassAttr) (s : State) :
    Evolves h s (markClassOf env a mark s) := by
  unfold markClassOf
  split
  · exact (Evolves.refl s).modifyClass _ fun _ => rfl
  · exact .refl s

theorem markHashable_evolves (env : Env) (s : State) : Evolves h s (markHashable env s) := by
  refine Evolves.foldl (fun t d _ => ?_) s
  split
  · exact markClassOf_evolves env _ _ t
  · exact .refl t

theorem markPrintable_evolves (env : Env) (s : State) : Evolves h s (markPrintable env s) := by
  refine Evolves.foldl (fun t d _ => ?_) s
  split
  · split
    · exact markClassOf_evolves env _ _ t
    · exact .refl t
  · exact .refl t

theorem addOperator_evolves (env : Env) (s : State) (d : FunctionDecl) :
    Evolves h s (addOperator env s d) := by
  unfold addOperator
  split
  · exact .refl s
  · split
    · exact .refl s
    · next home objectFirst _ =>
      have hjudge := judge_evolves (h := h) env s ⟨some home, []⟩ d
      split
      · next f t ht =>
        rw [ht] at hjudge
        split
        · exact hjudge
        · obtain ⟨hdeclaring, himplementing, hlabelled⟩ := judge_made ht
          have htake := labelled_takeObject objectFirst (d.args.length = 1) hlabelled
          refine hjudge.addMember home (SameMaking.belongsTo (.editFunctions _ _) ?_)
          exact ⟨hdeclaring, himplementing, by simp, htake⟩
      · next t _ ht =>
        rwa [ht] at hjudge

theorem addStreamOperator_evolves (env : Env) (s : State) (d : FunctionDecl) :
    Evolves h s (addStreamOperator env s d) := by
  unfold addStreamOperator
  split
  · split
    · next streamed _ _ =>
      have hjudge := judge_evolves (h := h) env s ⟨some streamed, []⟩ d
      split
      · exact .refl s
      · split
        · next f t ht =>
          rw [ht] at hjudge
          split
          · next first second hargs =>
            obtain ⟨-, -, hlabelled⟩ := judge_made ht
            refine hjudge.addMember _ (SameMaking.belongsTo (.editFunctions _ _) ?_)
            refine ⟨rfl, rfl, by simp [Function.setOwner], labelled_reindex fun a ha => ?_⟩
            refine hlabelled.named a ?_
            rw [hargs]
            split at ha <;> simp_all
          · exact hjudge
        · next t _ ht =>
          rwa [ht] at hjudge
    · exact .refl s
  · exact .refl s

theorem addOperators_evolves (env : Env) (s : State) : Evolves h s (addOperators env s) :=
  (Evolves.foldl (fun t d _ => addOperator_evolves env t d) s).trans
    (.foldl (fun t d _ => addStreamOperator_evolves env t d) _)

/-- Completing goes on from where all bases are resolved. -/
theorem complete_evolves_settled (env : Env) (s : State) :
    Evolves h (settleAll env s) (complete env s) := by
  have himplicit : Evolves h (settleAll env s) (if env.config.addDefaultConstructors then
      addImplicitAll (settleAll env s) else settleAll env s) := by
    split
    · exact addImplicitAll_evolves _
    · exact .refl _
  have hentries := himplicit.trans (checkEntries_evolves _)
  have hmarks := (hentries.trans (markHashable_evolves env _)).trans (markPrintable_evolves env _)
  exact (hmarks.trans (addOperators_evolves env _)).warnAll _

theorem complete_evolves (env : Env) (s : State) : Evolves h s (complete env s) :=
  (settleAll_evolves env s).trans (complete_evolves_settled env s)

/-! ### What follows the sorting -/

theorem linkCopies_evolves (classes : List ClassId) (s : State) :
    Evolves h s (linkCopies classes s) := by
  refine Evolves.foldl (fun t i _ => ?_) s
  refine Evolves.trans (t := { t with store := markClonable _ t.store i }) ?_
    (.foldl (fun u k _ => ?_) _)
  · unfold markClonable
    split
    · exact (Evolves.refl t).modifyClass i fun _ => rfl
    · exact .refl t
  · unfold addConversion
    split
    · exact .refl u
    · split
      · exact .refl u
      · split
        · exact (Evolves.refl u).modifyClass _ fun c => c.core_addExternalConversion _
        · exact .refl u

theorem settlePoliciesAll_evolves (classes : List ClassId) (s : State) :
    Evolves h s (settlePoliciesAll classes s) := by
  have hstore : Evolves h s
      { s with store := classes.foldl (settleClassPolicies s.db) s.store } := by
    refine Evolves.foldlStore (fun t i => ?_) classes s
    exact (Evolves.refl t).step (.settle i fun f =>
      (f.policies.orElse (classPolicies t.store i)).orElse s.db.policies)
  exact hstore.step (.settleFree fun f => (f.policies.orElse {}).orElse s.db.policies)

end Assembly
end BindingModel
