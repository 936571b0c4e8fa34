import BindingModel.Proofs.Assembly.Alike

/-! The passes of an assembly side by side: states that are alike stay so. -/
namespace BindingModel
open Api Header

namespace Database.SameRules
variable {db db' : Database} (h : db.SameRules db')
include h

theorem enumNamed? : Assembly.enumNamed? db = Assembly.enumNamed? db' := by
  funext name
  unfold Assembly.enumNamed?
  rw [h.named]

theorem entryOfAnonymous? : Assembly.entryOfAnonymous? db = Assembly.entryOfAnonymous? db' := by
  funext d scope
  unfold Assembly.entryOfAnonymous?
  rw [h.enumNamed?]

theorem classEntry : Assembly.classEntry db = Assembly.classEntry db' := by
  funext name
  unfold Assembly.classEntry
  simp only [h.rejection?, h.findComplex?, h.findType?, h.codegen]

theorem registerEnumValue (name value : String) (enum? : Option Entry) :
    (Assembly.registerEnumValue db name value enum?).SameRules
      (Assembly.registerEnumValue db' name value enum?) := by
  unfold Assembly.registerEnumValue
  rw [h.named]
  split
  · exact h
  · exact (h.add name _).2

theorem registerEnumValues (d : EnumDecl) (e : Entry) (scope : String) :
    (Assembly.registerEnumValues d e scope db).SameRules
      (Assembly.registerEnumValues d e scope db') := by
  refine h.foldl fun db db' h v _ => ?_
  have hvalue := h.registerEnumValue (scope ++ v.name) (toString v.value) (some e)
  dsimp only
  split
  · exact hvalue.changed (.setNullValue _ e v.name) (.setNullValue _ e v.name)
  · exact hvalue

end Database.SameRules

namespace Assembly
variable {s t : State}

/-! ### Enums -/

theorem enumEntry_alike (h : Alike s t) (d : EnumDecl) (scope : String) :
    (enumEntry s d scope).1 = (enumEntry t d scope).1 ∧
      GiveAlike (enumEntry s d scope).2 (enumEntry t d scope).2 := by
  have halike := h
  obtain ⟨db, hdb, rfl⟩ := h
  unfold enumEntry
  dsimp only
  rw [hdb.enumNamed?, hdb.entryOfAnonymous?, hdb.findType?]
  split
  · split
    · exact ⟨rfl, rfl, halike⟩
    · obtain ⟨hentry, hadd⟩ := hdb.add (inScope scope d.name) .enumeration
      exact ⟨congrArg some hentry, rfl, _, hadd, rfl⟩
  · split
    · split
      · exact ⟨rfl, rfl, halike⟩
      · exact ⟨rfl, rfl, halike⟩
    · exact ⟨rfl, rfl, halike⟩

theorem scanEnum_alike (h : Alike s t) (env : Env) (enclosing? : Option ClassId) (d : EnumDecl) :
    GiveAlike (scanEnum env s enclosing? d) (scanEnum env t enclosing? d) := by
  unfold scanEnum
  rw [h.store]
  dsimp only
  generalize ((enclosing?.map fun c => (t.store.get c).qualifiedName).getD "") = scope
  obtain ⟨hfound, hrest⟩ := enumEntry_alike h d scope
  generalize enumEntry s d scope = r, enumEntry t d scope = r' at hfound hrest
  obtain ⟨found?, r⟩ := r
  obtain ⟨_, r'⟩ := r'
  obtain ⟨name, u, v, rfl, rfl, huv⟩ := hrest.cases
  obtain rfl : found? = _ := hfound
  dsimp only
  rw [huv.rules.rejection?]
  split
  · split
    · exact ⟨rfl, (huv.modifyDatabase (huv.rules.setCodegen _ _)).reject _ _⟩
    · exact ⟨rfl, huv.reject _ _⟩
  · split
    · rw [huv.store, huv.rules.generatesTargetLang]
      exact ⟨rfl, (huv.warnIf _ _).reject _ _⟩
    · next e _ =>
      have hpriv : Alike (if d.access = .priv then u.modifyDatabase (·.setCodegen e noCode) else u)
          (if d.access = .priv then v.modifyDatabase (·.setCodegen e noCode) else v) := by
        split
        · exact huv.modifyDatabase (huv.rules.setCodegen _ _)
        · exact huv
      have hvalues := hpriv.modifyDatabase (hpriv.rules.registerEnumValues d e
        (valueScope d e scope))
      exact ⟨rfl, hvalues.applyInclude env e d.file?⟩

theorem addEnums_alike (h : Alike s t) (env : Env) (c : ClassId) (enums : List EnumDecl) :
    Alike (addEnums env c enums s) (addEnums env c enums t) := by
  refine h.foldl fun s t h d _ => ?_
  obtain ⟨e?, u, v, hu, hv, huv⟩ := (scanEnum_alike h env (some c) d).cases
  rw [hu, hv]
  cases e? with
  | none => exact huv
  | some e => exact huv.modifyClass c _

theorem addGlobalEnums_alike (h : Alike s t) (env : Env) :
    Alike (addGlobalEnums env s) (addGlobalEnums env t) := by
  refine h.foldl fun s t h d _ => ?_
  obtain ⟨e?, u, v, hu, hv, huv⟩ := (scanEnum_alike h env none d).cases
  rw [hu, hv]
  cases e? with
  | none => exact huv
  | some e =>
    dsimp only
    rw [huv.rules.generates]
    split
    · exact huv.write (f := fun s => { s with globalEnums := s.globalEnums ++ [e] }) fun _ _ => rfl
    · exact huv

/-! ### Declarations -/

theorem addProperties_alike (h : Alike s t) (env : Env) (p : Place) (c : ClassId)
    (texts : List String) :
    Alike (addProperties env p c texts s) (addProperties env p c texts t) := by
  unfold addProperties
  dsimp only
  rw [h.store, (h.lookup env).bindType]
  exact ((h.warnAll _).warnAll _).modifyClass c _

theorem adopt_alike (h : Alike s t) (parent c : ClassId) :
    Alike (adopt parent c s) (adopt parent c t) :=
  ((h.modifyClass c _).modifyClass parent _).addClass c

theorem openScope_alike (h : Alike s t) (key : String) (c : ClassId) :
    Alike (openScope key c s) (openScope key c t) :=
  h.write fun _ _ => rfl

/-! ### Members -/

theorem Draft.Agrees.field {d e : Draft} (h : d.Agrees e) : d.field = e.field := by
  funext i c v
  unfold Draft.field
  rw [h.lookup.rules.rejection?, h.bindType]

theorem addField_alike (h : Alike s t) (env : Env) (p : Place) (i : ClassId) (v : VariableDecl) :
    Alike (addField env p i s v) (addField env p i t v) := by
  unfold addField
  rw [h.store, (h.draft env p.path (some i)).field, h.rules.generatesTargetLang]
  dsimp only
  split
  · exact h.modifyClass i _
  · exact h
  · exact h.reject .fields _
  · exact h.warnIf _ _

theorem judge_alike (h : Alike s t) (env : Env) (p : Place) (f : FunctionDecl) :
    GiveAlike (s.judge env p f) (t.judge env p f) := by
  unfold State.judge
  dsimp only
  rw [(h.draft env p.path p.class?).judge]
  split
  · exact ⟨rfl, (h.warnAll _).reject .functions _⟩
  · exact ⟨rfl, h.warnAll _⟩

theorem finishMember_alike (h : Alike s t) : finishMember s = finishMember t := by
  funext c f
  unfold finishMember fixConversion
  rw [h.modsOf, h.rules.findType?]

theorem addMember_alike (h : Alike s t) (env : Env) (p : Place) (i : ClassId) (d : FunctionDecl) :
    Alike (addMember env p i s d) (addMember env p i t d) := by
  obtain ⟨verdict, u, v, hu, hv, huv⟩ := (judge_alike h env p d).cases
  unfold addMember
  rw [hu, hv, h.store]
  cases verdict with
  | ignored => exact huv
  | rejected r => exact huv.modifyClass i _
  | built f =>
    dsimp only
    rw [finishMember_alike huv]
    split
    · exact huv.modifyClass i _
    · split
      · exact huv.modifyClass i _
      · exact (huv.modifyClass i _).modifyClass i _

theorem addGlobalFunction_alike (h : Alike s t) (env : Env) (d : FunctionDecl) :
    Alike (addGlobalFunction env s d) (addGlobalFunction env t d) := by
  unfold addGlobalFunction
  rw [h.rules.findFunction?, h.rules.generates]
  split
  · exact h
  · split
    · exact h
    · next entry _ =>
      obtain ⟨verdict, u, v, hu, hv, huv⟩ := (judge_alike h env {} d).cases
      rw [hu, hv]
      cases verdict with
      | ignored => exact huv
      | rejected r => exact huv
      | built f =>
        dsimp only
        rw [huv.modsOf]
        split
        · exact (huv.applyInclude env entry d.file?).write
            (f := fun s => { s with globalFunctions := s.globalFunctions ++ [_] }) fun _ _ => rfl
        · exact huv

/-! ### Inheritance -/

theorem argumentEntry_alike (h : Alike s t) (c template : ClassId) (name : String) :
    GiveAlike (argumentEntry s c template name) (argumentEntry t c template name) := by
  have halike := h
  obtain ⟨db, hdb, rfl⟩ := h
  unfold argumentEntry
  dsimp only
  rw [hdb.findType?]
  split
  · split
    · exact ⟨rfl, halike⟩
    · obtain ⟨hentry, hadd⟩ := hdb.add name (.enumValue name none)
      generalize s.db.add name _ = r, db.add name _ = r' at hentry hadd ⊢
      obtain ⟨e, u⟩ := r
      obtain ⟨_, v⟩ := r'
      obtain rfl := hentry
      exact ⟨rfl, v.setCodegen e noCode, hadd.setCodegen e noCode, rfl⟩
  · exact ⟨rfl, halike⟩

theorem bindArguments_alike (c template : ClassId) (written : TypeExpr) (l : List TypeExpr)
    (h : Alike s t) :
    GiveAlike (bindArguments c template written l s) (bindArguments c template written l t) := by
  induction l generalizing s t with
  | nil => exact ⟨rfl, h⟩
  | cons a l ih =>
    obtain ⟨e?, u, v, hu, hv, huv⟩ := (argumentEntry_alike h c template a.qualifiedName).cases
    unfold bindArguments
    rw [hu, hv]
    cases e? with
    | none => exact ih (huv.warn _)
    | some e =>
      obtain ⟨bs, u', v', hu', hv', huv'⟩ := (ih huv).cases
      dsimp only
      rw [hu', hv']
      exact ⟨rfl, huv'⟩

theorem warnUninstantiable_alike (h : Alike s t) (env : Env) (e : Uninstantiable) :
    Alike (warnUninstantiable env s e) (warnUninstantiable env t e) := by
  unfold warnUninstantiable
  split
  · exact h.warn _
  · exact h

theorem inheritFunction_alike (h : Alike s t) (env : Env) (i : ClassId) (template : BoundClass)
    (bindings : List BoundType) (f : Function) :
    Alike (inheritFunction env i template bindings s f)
      (inheritFunction env i template bindings t f) := by
  unfold inheritFunction takesOver
  rw [h.isRemoved, h.modsOf, h.store]
  dsimp only
  split
  · split
    · exact warnUninstantiable_alike h env _
    · have hmods : ∀ mods : List FunctionMod,
          Alike (s.modifyDatabase fun db => mods.foldl (·.addMod (t.store.get i).entry ·) db)
            (t.modifyDatabase fun db => mods.foldl (·.addMod (t.store.get i).entry ·) db) :=
        fun mods => h.modifyDatabase (h.rules.foldl fun _ _ hdb m _ => hdb.addMod _ m)
      rw [(hmods _).modsOf]
      exact ((hmods _).warnAll _).modifyClass i _
  · exact h

theorem inheritField_alike (h : Alike s t) (env : Env) (i : ClassId) (template : BoundClass)
    (bindings : List BoundType) (f : Field) :
    Alike (inheritField env i template bindings s f)
      (inheritField env i template bindings t f) := by
  unfold inheritField
  rw [h.store]
  dsimp only
  split
  · exact h
  · split
    · exact warnUninstantiable_alike h env _
    · exact h.modifyClass i _

theorem inheritTemplate_alike (h : Alike s t) (env : Env) (i template : ClassId)
    (written : TypeExpr) :
    Alike (inheritTemplate env i template written s)
      (inheritTemplate env i template written t) := by
  unfold inheritTemplate
  rw [h.store]
  dsimp only
  obtain ⟨bindings, u, v, hu, hv, huv⟩ :=
    (bindArguments_alike i template written written.args (h.modifyClass i _)).cases
  rw [hu, hv]
  have hfunctions := huv.foldl (l := (t.store.get template).functions) fun _ _ h f _ =>
    inheritFunction_alike h env i (t.store.get template) bindings f
  have hfields := hfunctions.foldl (l := (t.store.get template).fields) fun _ _ h f _ =>
    inheritField_alike h env i (t.store.get template) bindings f
  dsimp only
  rw [hfields.store]
  exact hfields.modifyClass i _

theorem searchTemplate_alike (h : Alike s t) (written : String) (names : List String) :
    s.searchTemplate written names = t.searchTemplate written names := by
  have hnamed : s.templateNamed? = t.templateNamed? := h.read fun _ _ => rfl
  induction names with
  | nil => rfl
  | cons name names ih =>
    unfold State.searchTemplate
    rw [ih, hnamed, h.rules.findContainer?]

theorem findBases_alike (h : Alike s t) (env : Env) : findBases env s = findBases env t := by
  funext i names
  unfold findBases
  rw [h.rules.rejection?, h.findClass?, h.store]

theorem addBase_alike (h : Alike s t) (i : ClassId) (primary : Bool) (b : ClassId) :
    Alike (addBase i primary b s) (addBase i primary b t) := by
  unfold addBase
  rw [h.store]
  exact h.modifyClass i _

section
variable {settle : ClassId → State → State}
  (hsettle : ∀ i s t, Alike s t → Alike (settle i s) (settle i t))
include hsettle

theorem resolveTemplateBase_alike (h : Alike s t) (env : Env) (i : ClassId) (written : String) :
    Alike (resolveTemplateBase env settle i written s)
      (resolveTemplateBase env settle i written t) := by
  unfold resolveTemplateBase
  dsimp only
  rw [h.store, searchTemplate_alike h]
  have hwarned := h.warnAll (t.searchTemplate written
    (State.templateNames (t.store.get i).qualifiedName written)).warnings
  split
  · next c found _ =>
    have hinherited := inheritTemplate_alike (hsettle c _ _ hwarned) env i c found
    refine hinherited.modifyDatabase ?_
    rw [hinherited.store]
    exact hinherited.rules.changed (.setBaseContainer _ _ _) (.setBaseContainer _ _ _)
  · refine hwarned.modifyDatabase (hwarned.rules.changed ?_ ?_)
    · exact .setBaseContainer _ _ _
    · exact .setBaseContainer _ _ _
  · exact hwarned.warn _

theorem resolveBases_alike (h : Alike s t) (env : Env) (i : ClassId) :
    Alike (resolveBases env settle i s) (resolveBases env settle i t) := by
  unfold resolveBases
  rw [h.store]
  extract_lets c byNames
  have hnames : Alike (byNames s) (byNames t) := by
    unfold byNames
    rw [findBases_alike h, h.store]
    refine ((h.warnAll _).warnIf _ _).foldl fun u v huv b _ => ?_
    refine addBase_alike ?_ i _ _
    rw [huv.store]
    split
    · exact huv
    · exact hsettle _ _ _ huv
  split
  · split
    · exact resolveTemplateBase_alike hsettle h env i _
    · exact hnames
  · exact hnames

end

theorem settleFrom_alike (env : Env) (n : Nat) (i : ClassId) (s t : State) (h : Alike s t) :
    Alike (settleFrom env n i s) (settleFrom env n i t) := by
  induction n generalizing i s t with
  | zero => exact h
  | succ n ih =>
    have hsettled : s.settled = t.settled := h.read fun _ _ => rfl
    unfold settleFrom
    rw [hsettled]
    split
    · exact h
    · refine resolveBases_alike ih ?_ env i
      exact h.write (f := fun u => { u with settled := i :: t.settled }) fun _ _ => rfl

theorem settleAll_alike (h : Alike s t) (env : Env) :
    Alike (settleAll env s) (settleAll env t) := by
  unfold settleAll settle
  rw [h.registry]
  refine h.foldl fun s t h i _ => ?_
  rw [h.store]
  dsimp only
  split
  · exact h
  · exact settleFrom_alike env _ i s t h

/-! ### Completion -/

theorem addImplicitAll_alike (h : Alike s t) : Alike (addImplicitAll s) (addImplicitAll t) :=
  h.write fun _ _ => rfl

theorem checkEntry_alike (h : Alike s t) (e : Entry) :
    Alike (checkEntry s e) (checkEntry t e) := by
  have hdeclared : isDeclaredEnum s = isDeclaredEnum t := h.read fun _ _ => rfl
  have hfree : s.globalFunctions = t.globalFunctions := h.read fun _ _ => rfl
  unfold checkEntry
  rw [h.rules.generatesTargetLang, h.rules.generates, h.rules.rejection?, h.classOf?, hdeclared,
    hfree]
  split
  · exact h.warnIf _ _
  · exact h.warnIf _ _
  · split
    · exact h.warnAll _
    · exact h
  · split
    · exact (h.modifyDatabase (h.rules.setCodegen e noCode)).warn _
    · exact h
  · exact h

theorem checkEntries_alike (h : Alike s t) : Alike (checkEntries s) (checkEntries t) := by
  unfold checkEntries
  rw [h.rules.entries]
  exact h.foldl fun _ _ h e _ => checkEntry_alike h e

theorem classOfArgument?_alike (h : Alike s t) (env : Env) :
    classOfArgument? env s = classOfArgument? env t := by
  funext a
  unfold classOfArgument?
  rw [(h.lookup env).bindType, h.classOf?]

theorem markClassOf_alike (h : Alike s t) (env : Env) (a : ArgumentDecl) (mark : ClassAttr) :
    Alike (markClassOf env a mark s) (markClassOf env a mark t) := by
  unfold markClassOf
  rw [classOfArgument?_alike h]
  split
  · exact h.modifyClass _ _
  · exact h

theorem markHashable_alike (h : Alike s t) (env : Env) :
    Alike (markHashable env s) (markHashable env t) := by
  refine h.foldl fun s t h d _ => ?_
  split
  · exact markClassOf_alike h env _ _
  · exact h

theorem markPrintable_alike (h : Alike s t) (env : Env) :
    Alike (markPrintable env s) (markPrintable env t) := by
  refine h.foldl fun s t h d _ => ?_
  split
  · split
    · exact markClassOf_alike h env _ _
    · exact h
  · exact h

theorem operatorHome?_alike (h : Alike s t) (env : Env) :
    operatorHome? env s = operatorHome? env t := by
  have hreturns : returnsSecond env s = returnsSecond env t := by
    funext d first second
    unfold returnsSecond
    rw [(h.lookup env).bindType, h.store]
  funext d
  unfold operatorHome?
  rw [classOfArgument?_alike h, hreturns, h.store, h.rules.generatesTargetLang]

theorem addOperator_alike (h : Alike s t) (env : Env) (d : FunctionDecl) :
    Alike (addOperator env s d) (addOperator env t d) := by
  unfold addOperator
  rw [operatorHome?_alike h]
  split
  · exact h
  · split
    · exact h
    · next home objectFirst _ =>
      obtain ⟨verdict, u, v, hu, hv, huv⟩ := (judge_alike h env ⟨some home, []⟩ d).cases
      rw [hu, hv]
      cases verdict with
      | ignored => exact huv
      | rejected r => exact huv
      | built f =>
        dsimp only
        rw [huv.modsOf]
        split
        · exact huv
        · exact huv.modifyClass home _

theorem addStreamOperator_alike (h : Alike s t) (env : Env) (d : FunctionDecl) :
    Alike (addStreamOperator env s d) (addStreamOperator env t d) := by
  unfold addStreamOperator
  rw [classOfArgument?_alike h, h.store]
  split
  · split
    · next streamed _ _ =>
      split
      · exact h
      · obtain ⟨verdict, u, v, hu, hv, huv⟩ := (judge_alike h env ⟨some streamed, []⟩ d).cases
        rw [hu, hv]
        cases verdict with
        | ignored => exact huv
        | rejected r => exact huv
        | built f =>
          dsimp only
          rw [huv.modsOf, huv.store, huv.rules.generates]
          split
          · exact huv.modifyClass _ _
          · exact huv
    · exact h
  · exact h

theorem addOperators_alike (h : Alike s t) (env : Env) :
    Alike (addOperators env s) (addOperators env t) :=
  (h.foldl fun _ _ h d _ => addOperator_alike h env d).foldl
    fun _ _ h d _ => addStreamOperator_alike h env d

theorem checkMods_alike (h : Alike s t) : Alike (checkMods s) (checkMods t) := by
  have hunmatched : unmatchedMods s.db s.store = unmatchedMods t.db t.store := by
    funext i
    unfold unmatchedMods
    rw [h.rules.mods, h.store]
  unfold checkMods
  rw [hunmatched, h.registry]
  exact h.warnAll _

theorem complete_alike (h : Alike s t) (env : Env) :
    Alike (complete env s) (complete env t) := by
  have hsettled := settleAll_alike h env
  have himplicit : Alike
      (if env.config.addDefaultConstructors then addImplicitAll (settleAll env s)
        else settleAll env s)
      (if env.config.addDefaultConstructors then addImplicitAll (settleAll env t)
        else settleAll env t) := by
    split
    · exact addImplicitAll_alike hsettled
    · exact hsettled
  have hmarked := markPrintable_alike (markHashable_alike (checkEntries_alike himplicit) env) env
  exact checkMods_alike (addOperators_alike hmarked env)

/-! ### What follows the sorting -/

theorem addConversion_alike (h : Alike s t) (r : FunctionRef) :
    Alike (addConversion s r) (addConversion t r) := by
  unfold addConversion
  rw [h.isRemoved, h.classOf?, h.store]
  split
  · exact h
  · split
    · exact h
    · split
      · exact h.modifyClass _ _
      · exact h

theorem addConversions_alike (h : Alike s t) (i : ClassId) :
    Alike (addConversions s i) (addConversions t i) := by
  unfold addConversions
  rw [h.store]
  exact h.foldl fun _ _ h k _ => addConversion_alike h ⟨i, k⟩

theorem linkCopies_alike (h : Alike s t) (classes : List ClassId) :
    Alike (linkCopies classes s) (linkCopies classes t) := by
  unfold linkCopies
  rw [h.registry]
  refine h.foldl fun s t h i _ => ?_
  refine addConversions_alike ?_ i
  exact h.write (f := fun s => { s with store := markClonable _ s.store i }) fun _ _ => rfl

theorem settlePoliciesAll_alike (h : Alike s t) (classes : List ClassId) :
    Alike (settlePoliciesAll classes s) (settlePoliciesAll classes t) := by
  obtain ⟨db, hdb, rfl⟩ := h
  refine ⟨db, hdb, ?_⟩
  have hsettle : settlePolicies db = settlePolicies s.db := by
    funext p f
    unfold settlePolicies
    rw [hdb.policies]
  have hclass : settleClassPolicies db = settleClassPolicies s.db := by
    funext u i
    unfold settleClassPolicies
    rw [hsettle]
  unfold settlePoliciesAll
  rw [hsettle, hclass]

end Assembly
end BindingModel
