import BindingModel.Proofs.Assembly.AlikePasses
import BindingModel.Proofs.Assembly.Registration

/-! Assemblies of one header one after another, by the rules that each leaves to the next. -/
namespace BindingModel
open Api Header

namespace Assembly

/-! ### Runs side by side -/

section
variable {s t : State} (h : Alike s t) (env : Env) (p : Place)
include h

theorem makeAdded_alike (class? : Option ClassId) (a : AddedFunction) :
    RunAlike (makeAdded env p class? a) (makeAdded env p class? a) s t := by
  have hdraft := h.draft env p.path class?
  refine .get_bind ?_
  dsimp only
  rw [hdraft.added, hdraft.className]
  split
  · exact .bind (.set (h.warnAll _)) fun _ _ _ h => .pure h _
  · exact .throw h _

theorem fillAdded_alike (c : ClassId) : RunAlike (fillAdded env p c) (fillAdded env p c) s t := by
  refine .get_bind ?_
  rw [h.store]
  dsimp only
  split
  · exact .pure h _
  · refine .forM h fun s t h a _ => .bind (makeAdded_alike h env p (some c) a) fun f s t h => ?_
    exact .modify (h.modifyClass c _)

theorem fillGlobalAdded_alike : RunAlike (fillGlobalAdded env) (fillGlobalAdded env) s t := by
  refine .get_bind ?_
  rw [h.rules.globalAdded]
  refine .forM h fun s t h a _ => .bind (makeAdded_alike h env {} none a) fun f s t h => .modify ?_
  exact h.write (f := fun s => { s with globalFunctions := s.globalFunctions ++ [f] })
    fun _ _ => rfl

theorem declareTypedef_alike (d : TypedefDecl) :
    RunAlike (declareTypedef env p d) (declareTypedef env p d) s t := by
  refine .get_bind ?_
  dsimp only
  rw [h.rules.findPrimitive?, h.rules.findComplex?, h.store]
  split
  · split
    · split
      · exact .bind (.pure h _) fun _ _ _ h => .pure h _
      · refine .bind (.modify ?_) fun _ _ _ h => .pure h _
        exact h.modifyDatabase (h.rules.changed (.setReferenced _ _ _) (.setReferenced _ _ _))
    · exact .bind (.pure h _) fun _ _ _ h => .pure h _
  · split
    · exact .pure h _
    · next entry _ =>
      obtain ⟨hid, hnew⟩ := h.createClass (.typedef entry d.target.text)
      rw [hid]
      refine .bind (.set (hnew.applyInclude env entry d.file?)) fun _ s t h => ?_
      exact .bind (fillAdded_alike h env p _) fun _ _ _ h => .pure h _

theorem declareTypedefs_alike {file : ClassId → State → State}
    (hfile : ∀ c s t, Alike s t → Alike (file c s) (file c t)) (l : List TypedefDecl) :
    RunAlike (declareTypedefs env p file l) (declareTypedefs env p file l) s t := by
  refine .forM h fun s t h d _ => .bind (declareTypedef_alike h env p d) fun c? s t h => ?_
  cases c? with
  | none => exact .pure h _
  | some c => exact .modify (hfile c s t h)

omit h in
theorem adopted_alike (parent : ClassId) {d : Build (Option ClassId)} (hd : RunAlike d d s t)
    {rest : Build Unit} (hrest : ∀ s t, Alike s t → RunAlike rest rest s t) :
    RunAlike (do
      match ← d with
      | some c => modify (adopt parent c)
      | none => pure ()
      rest) (do
      match ← d with
      | some c => modify (adopt parent c)
      | none => pure ()
      rest) s t := by
  refine hd.bind fun c? s t h => ?_
  cases c? with
  | none => exact hrest s t h
  | some c => exact .bind (.modify (adopt_alike h parent c)) fun _ s t h => hrest s t h

end

mutual

theorem declareClass_alike (env : Env) (p : Place) (s t : State) (h : Alike s t) :
    (d : ClassDecl) → RunAlike (declareClass env p d) (declareClass env p d) s t
  | ⟨decls, classes, bases, templateParams, isFinal, properties⟩ => by
    unfold declareClass
    refine .get_bind ?_
    dsimp only
    rw [h.store, h.rules.classEntry]
    split
    · exact .bind (.modify (h.reject .classes _)) fun _ _ _ h => .pure h _
    · next entry _ =>
      obtain ⟨hid, hnew⟩ := h.createClass {
        entry
        attrs := (FlagSet.ofList [.pub]).insertIf isFinal .finalCpp
          |>.insertIf (entry.rules?.any (·.isStream)) .stream
        baseNames := (bases.filter (·.access == .pub)).map (·.name)
        templateParams := templateParams.mapIdx fun i n => .placeholder n i }
      rw [hid]
      refine .bind (.set (addEnums_alike hnew env _ _)) fun _ s t h => ?_
      refine .bind (declareInner_alike env _ _ s t h classes) fun _ s t h => ?_
      refine .bind (declareTypedefs_alike h env _ (fun c s t h => ?_) _) fun _ s t h => ?_
      · exact (h.modifyClass c _).addClass c
      refine .bind (.modify (addProperties_alike h env _ _ properties)) fun _ s t h => ?_
      refine .bind (.modify ?_) fun _ _ _ h => .pure h _
      exact openScope_alike (h.applyInclude env entry decls.file?) _ _

theorem declareInner_alike (env : Env) (p : Place) (parent : ClassId) (s t : State)
    (h : Alike s t) : (l : List ClassDecl) →
      RunAlike (declareInner env p parent l) (declareInner env p parent l) s t
  | [] => .pure h _
  | d :: ds =>
    adopted_alike parent (declareClass_alike env p s t h d)
      fun s t h => declareInner_alike env p parent s t h ds

end

mutual

theorem declareNamespace_alike (env : Env) (p : Place) (s t : State) (h : Alike s t) :
    (d : NamespaceDecl) → RunAlike (declareNamespace env p d) (declareNamespace env p d) s t
  | ⟨decls, classes, namespaces⟩ => by
    unfold declareNamespace
    refine .get_bind ?_
    dsimp only
    rw [h.store, h.rules.rejection?, h.rules.findNamespace?]
    split
    · exact .bind (.modify (h.reject .classes _)) fun _ _ _ h => .pure h _
    · exact .bind (.modify (h.warn _)) fun _ _ _ h => .pure h _
    · next entry _ _ =>
      obtain ⟨hid, hnew⟩ := h.createClass { entry }
      rw [hid]
      refine .bind (.set (addEnums_alike hnew env _ _)) fun _ s t h => ?_
      refine .bind (declareInner_alike env _ _ s t h classes) fun _ s t h => ?_
      refine .bind (declareTypedefs_alike h env _ (fun c s t h => adopt_alike h _ c) _)
        fun _ s t h => ?_
      refine .bind (declareNamespaces_alike env _ _ s t h namespaces) fun _ s t h => ?_
      refine .bind (.modify ?_) fun _ _ _ h => .pure h _
      exact openScope_alike (h.applyInclude env entry decls.file?) _ _

theorem declareNamespaces_alike (env : Env) (p : Place) (parent : ClassId) (s t : State)
    (h : Alike s t) : (l : List NamespaceDecl) →
      RunAlike (declareNamespaces env p parent l) (declareNamespaces env p parent l) s t
  | [] => .pure h _
  | d :: ds =>
    adopted_alike parent (declareNamespace_alike env p s t h d)
      fun s t h => declareNamespaces_alike env p parent s t h ds

end

theorem declareRuleTypedefs_alike {s t : State} (h : Alike s t) (env : Env) :
    RunAlike (declareRuleTypedefs env) (declareRuleTypedefs env) s t := by
  refine .get_bind ?_
  rw [h.rules.typedefs]
  refine .forM h fun s t h e _ => .get_bind ?_
  dsimp only
  rw [h.classOf?]
  split
  · next target source _ _ =>
    split
    · exact .pure h _
    · obtain ⟨hid, hnew⟩ := h.createClass (.typedef target source)
      rw [hid]
      refine .bind (.set hnew) fun _ s t h => ?_
      refine .bind (fillAdded_alike h env {} _) fun _ s t h => ?_
      exact .modify (h.addClass _)
  · exact .pure h _

theorem declareAll_alike {s t : State} (h : Alike s t) (env : Env) :
    RunAlike (declareAll env) (declareAll env) s t := by
  have hfile : ∀ {d : Build (Option ClassId)} {s t : State}, RunAlike d d s t →
      RunAlike (do
        match ← d with
        | some c => modify (·.addClass c)
        | none => pure ()) (do
        match ← d with
        | some c => modify (·.addClass c)
        | none => pure ()) s t := by
    intro d s t hd
    refine hd.bind fun c? s t h => ?_
    cases c? with
    | none => exact .pure h _
    | some c => exact .modify (h.addClass c)
  refine .bind (.forM h fun s t h d _ => hfile (declareClass_alike env {} s t h d))
    fun _ s t h => ?_
  refine .bind (.forM h fun s t h d _ => hfile (declareNamespace_alike env {} s t h d))
    fun _ s t h => ?_
  refine .bind (.modify (addGlobalEnums_alike h env)) fun _ s t h => ?_
  refine .bind (.forM h fun s t h d _ => hfile (declareTypedef_alike h env {} d)) fun _ s t h => ?_
  exact declareRuleTypedefs_alike h env

theorem addMembers_alike {s t : State} (h : Alike s t) (env : Env) (p : Place) (i : ClassId)
    (d : Declarations) : RunAlike (addMembers env p i d) (addMembers env p i d) s t := by
  refine .bind (.modify (h.foldl fun _ _ h v _ => addField_alike h env p i v)) fun _ s t h => ?_
  refine .bind (.modify (h.foldl fun _ _ h f _ => addMember_alike h env p i f)) fun _ s t h => ?_
  exact fillAdded_alike h env p i

theorem classOfScope?_alike {s t : State} (h : Alike s t) : s.classOfScope? = t.classOfScope? :=
  h.read fun _ _ => rfl

mutual

theorem fillClass_alike (env : Env) (p : Place) (s t : State) (h : Alike s t) :
    (d : ClassDecl) → RunAlike (fillClass env p d) (fillClass env p d) s t
  | ⟨decls, classes, _, _, _, _⟩ => by
    unfold fillClass
    refine .get_bind ?_
    rw [classOfScope?_alike h]
    split
    · exact .pure h _
    · refine .bind (addMembers_alike h env _ _ decls) fun _ s t h => ?_
      exact fillClasses_alike env _ s t h classes

theorem fillClasses_alike (env : Env) (p : Place) (s t : State) (h : Alike s t) :
    (l : List ClassDecl) → RunAlike (fillClasses env p l) (fillClasses env p l) s t
  | [] => .pure h _
  | d :: ds =>
    .bind (fillClass_alike env p s t h d) fun _ s t h => fillClasses_alike env p s t h ds

end

mutual

theorem fillNamespace_alike (env : Env) (p : Place) (s t : State) (h : Alike s t) :
    (d : NamespaceDecl) → RunAlike (fillNamespace env p d) (fillNamespace env p d) s t
  | ⟨decls, classes, namespaces⟩ => by
    unfold fillNamespace
    refine .get_bind ?_
    rw [classOfScope?_alike h]
    split
    · exact .pure h _
    · refine .bind (addMembers_alike h env _ _ decls) fun _ s t h => ?_
      refine .bind (fillClasses_alike env _ s t h classes) fun _ s t h => ?_
      exact fillNamespaces_alike env _ s t h namespaces

theorem fillNamespaces_alike (env : Env) (p : Place) (s t : State) (h : Alike s t) :
    (l : List NamespaceDecl) → RunAlike (fillNamespaces env p l) (fillNamespaces env p l) s t
  | [] => .pure h _
  | d :: ds =>
    .bind (fillNamespace_alike env p s t h d) fun _ s t h => fillNamespaces_alike env p s t h ds

end

theorem fillAll_alike {s t : State} (h : Alike s t) (env : Env) :
    RunAlike (fillAll env) (fillAll env) s t := by
  refine .bind (fillClasses_alike env {} s t h _) fun _ s t h => ?_
  refine .bind (fillNamespaces_alike env {} s t h _) fun _ s t h => ?_
  exact .modify (h.foldl fun _ _ h d _ => addGlobalFunction_alike h env d)

theorem orderInner_alike {s t : State} (h : Alike s t) (classes : List ClassId) :
    RunAlike (orderInner classes) (orderInner classes) s t := by
  refine .forM h fun s t h i _ => .get_bind ?_
  rw [h.rules.generates, h.store]
  dsimp only
  split
  · split
    · exact .set (h.modifyClass i _)
    · exact .throw h _
  · exact .pure h _

/-- Runs in states that are alike give the same. -/
theorem run_alike {s t : State} (h : Alike s t) (env : Env) :
    RunAlike (run env) (run env) s t := by
  refine .bind (declareAll_alike h env) fun _ s t h => ?_
  refine .bind (fillAll_alike h env) fun _ s t h => ?_
  refine .bind (.modify (complete_alike h env)) fun _ s t h => .get_bind ?_
  rw [h.store, h.registry]
  split
  · exact .throw h _
  · next classes _ =>
    refine .bind (.modify (linkCopies_alike h classes)) fun _ s t h => ?_
    refine .bind (orderInner_alike h classes) fun _ s t h => ?_
    refine .bind (fillGlobalAdded_alike h env) fun _ s t h => ?_
    exact .bind (.modify (settlePoliciesAll_alike h classes)) fun _ _ _ h => .pure h _

/-! ### Assemblies one after another -/

variable {db db' : Database}

/-- Rules that differ only in what no assembly reads make the same model, with the same warnings, or
fail alike, and go on to differ only in that. -/
theorem assemble_congr (config : Config) (header : Header) (h : db.SameRules db') :
    (assemble config header db).result = (assemble config header db').result ∧
      (assemble config header db).warnings = (assemble config header db').warnings ∧
      (assemble config header db).db.SameRules (assemble config header db').db := by
  have hrun : RunAlike (run (.make config header)) (run (.make config header)) { db }
      { db := db' } := run_alike ⟨db', h, rfl⟩ _
  rw [assemble_eq, assemble_eq]
  unfold RunAlike at hrun
  split at hrun
  · next hs ht =>
    obtain ⟨rfl, db, hdb, rfl⟩ := hrun
    rw [hs, ht]
    exact ⟨rfl, rfl, hdb⟩
  · next hs ht =>
    obtain ⟨rfl, db, hdb, rfl⟩ := hrun
    rw [hs, ht]
    exact ⟨rfl, rfl, hdb⟩
  · exact hrun.elim

/-- The rules after a number of assemblies of one header. -/
def rulesAfter (config : Config) (header : Header) (db : Database) (n : Nat) : Database :=
  assembleAll (List.replicate n (config, header)) db

section
variable (config : Config) (header : Header) (db : Database)

theorem rulesAfter_succ (n : Nat) : rulesAfter config header db (n + 1) =
    (assemble config header (rulesAfter config header db n)).db := by
  unfold rulesAfter assembleAll
  rw [List.replicate_succ', List.foldl_concat]

theorem rulesAfter_add (k n : Nat) : rulesAfter config header db (k + n) =
    rulesAfter config header (rulesAfter config header db k) n := by
  unfold rulesAfter assembleAll
  rw [List.replicate_add, List.foldl_append]

variable {config header db}

/-- An assembly that leaves the rules the same leaves them the same however often it is made. -/
theorem rulesAfter_sameRules (h : db.SameRules (assemble config header db).db) (n : Nat) :
    db.SameRules (rulesAfter config header db n) := by
  induction n with
  | zero => exact .refl db
  | succ n ih =>
    rw [rulesAfter_succ]
    exact h.trans (assemble_congr config header ih).2.2

/-- Once an assembly of a header creates no entry, switches none off and gives none a function
modification, it can be made again and again: whatever else it leaves in the rules, from then on it
makes the same model each time, with the same warnings, or fails in the same way. -/
theorem assemble_repeated {k : Nat}
    (hsize : (rulesAfter config header db (k + 1)).states.size =
      (rulesAfter config header db k).states.size)
    (hcodegen : ∀ e, ((rulesAfter config header db (k + 1)).state e).codegen =
      ((rulesAfter config header db k).state e).codegen)
    (hmods : ∀ e, ((rulesAfter config header db (k + 1)).state e).mods =
      ((rulesAfter config header db k).state e).mods) (n : Nat) :
    let used := rulesAfter config header db
    (assemble config header (used (k + n))).result = (assemble config header (used k)).result ∧
      (assemble config header (used (k + n))).warnings =
        (assemble config header (used k)).warnings := by
  intro used
  rw [rulesAfter_succ] at hsize hcodegen hmods
  have hsame := (db_assemble_grows config header (used k)).sameRules hsize hcodegen hmods
  have hlater : (used k).SameRules (used (k + n)) := by
    rw [show used (k + n) = _ from rulesAfter_add config header db k n]
    exact rulesAfter_sameRules hsame n
  obtain ⟨hresult, hwarnings, -⟩ := assemble_congr config header hlater
  exact ⟨hresult.symm, hwarnings.symm⟩

end

/-- The first assembly registers an enumerator, the second none: the model is the same each time. -/
theorem assemble_repeated_red :
    let rules : Database := (Database.initial.add "Color" .enumeration).2
    let color : EnumDecl := { name := "Color", enumerators := [{ name := "red", value := 0 }] }
    let header : Header := { global := { decls := { name := "", enums := [color] } } }
    let used := rulesAfter {} header rules
    let enums (db : Database) := (assemble {} header db).result.toOption.map fun m =>
      m.globalEnums.map fun e => (e.qualifiedName, e.values.map (·.name))
    (used 1).states.size = rules.states.size + 1 ∧ used 2 = used 1 ∧
      enums rules = some [("Color", ["red"])] ∧ enums (used 1) = enums rules ∧
      (assemble {} header (used 3)).result = (assemble {} header (used 1)).result := by
  intro rules color header used enums
  have hused : used 2 = used 1 := by
    subst used header color rules
    with_unfolding_all rfl
  refine ⟨by decide +kernel, hused, by decide +kernel, by decide +kernel, ?_⟩
  apply (assemble_repeated (k := 1) ?_ ?_ ?_ 2).1
  · exact congrArg (·.states.size) hused
  · exact fun e => congrArg (fun db => (Database.state db e).codegen) hused
  · exact fun e => congrArg (fun db => (Database.state db e).mods) hused

/-- A class keeps the modifications of the template whose functions it took over, and the next
assembly applies them to the functions of its own. -/
theorem value_renamed_again :
    let renamed : FunctionMod := (FunctionMod.ofSignature "value()").rename "get"
    let holder : Entry := ⟨some 3, "Holder", .complex .container {}⟩
    let box : Entry := ⟨some 4, "Box", .complex .object {}⟩
    let rules : Database :=
      let (_, db) := Database.initial.add "int" .primitive
      let (holder, db) := db.create "Holder" (.complex .container {}) [renamed]
      ((db.register holder).add "Box" (.complex .object {})).2
    let value : FunctionDecl := { name := "value", returnType := .ofName "int" }
    let header : Header := { global := { classes :=
      [{ decls := { name := "Holder<T>", functions := [value] }, templateParams := ["T"] },
       { decls := { name := "Box", functions := [value] },
         bases := [{ name := "Holder<int>" }] }] } }
    let names (db : Database) := (assemble {} header db).result.toOption.map fun m =>
      m.classes.map fun i => (m.store.get i).functions.map (·.name)
    let used := (rules.addMod box renamed).setBaseContainer box holder
    (assemble {} header rules).db = used ∧
      names rules = some [["value", "get", "Box"]] ∧ names used = some [["get", "Box"]] := by
  refine ⟨?_, by decide +kernel, by decide +kernel⟩
  with_unfolding_all rfl

end Assembly
end BindingModel
