import BindingModel.Proofs.Assembly.Instances
import BindingModel.Proofs.Rule.SameMods

/-! Which of the functions of a template with one name a class takes over. -/
namespace BindingModel
open Api

namespace Database

/-- Both remove the same functions. -/
structure SameRemovals (db db' : Database) : Prop where
  removals : ∀ (e : Entry) (signature : String),
    (db'.modsFor e signature).any (·.isRemoved) = (db.modsFor e signature).any (·.isRemoved)
  globalMods : db'.globalMods = db.globalMods

namespace SameRemovals
variable {db db' db'' : Database}

theorem of_mods (h : db.SameMods db') : db.SameRemovals db' :=
  ⟨fun _ _ => by rw [h.modsFor], h.globalMods⟩

theorem refl (db : Database) : db.SameRemovals db := ⟨fun _ _ => rfl, rfl⟩

theorem trans (h : db.SameRemovals db') (k : db'.SameRemovals db'') : db.SameRemovals db'' :=
  ⟨fun e signature => (k.removals e signature).trans (h.removals e signature),
    k.globalMods.trans h.globalMods⟩

/-- A modification that removes nothing. -/
theorem addMod (e : Entry) {m : FunctionMod} (hm : m.isRemoved = false) :
    db.SameRemovals (db.addMod e m) := by
  unfold Database.addMod
  split
  · refine ⟨fun d signature => ?_, congrArg (·.globalMods) (listed_modify db e _).1⟩
    unfold modsFor mods
    rw [state_modify]
    split
    · split
      · have hnone : ([m].filter (·.covers signature)).any (·.isRemoved) = false := by
          rw [List.any_eq_false]
          intro m' hm'
          obtain rfl := List.mem_singleton.mp (List.mem_filter.mp hm').1
          rw [hm]
          exact Bool.false_ne_true
        rw [List.filter_append, List.any_append, hnone, Bool.or_false]
      · rfl
    · rfl
  · exact .refl db

theorem foldlAddMod (e : Entry) {mods : List FunctionMod}
    (hmods : ∀ m ∈ mods, m.isRemoved = false) (db : Database) :
    db.SameRemovals (mods.foldl (·.addMod e ·) db) :=
  List.foldlRecOn (motive := fun db' : Database => db.SameRemovals db') mods _ (.refl db)
    fun _ hdb m hm => hdb.trans (addMod e (hmods m hm))

end SameRemovals
end Database

namespace Assembly

/-! ### What stays while functions are taken over -/

/-- The same functions are removed, and classes are the same but for members and marks. -/
structure Steady (s t : State) : Prop where
  quiet : Quiet s t
  removals : s.db.SameRemovals t.db

namespace Steady
variable {s t u : State}

theorem refl (s : State) : Steady s s := ⟨.refl s, .refl s.db⟩

theorem trans (h : Steady s t) (k : Steady t u) : Steady s u :=
  ⟨h.quiet.trans k.quiet, h.removals.trans k.removals⟩

theorem foldl {α : Type} {f : State → α → State} (hf : ∀ s a, Steady s (f s a)) (l : List α)
    (s : State) : Steady s (l.foldl f s) :=
  List.foldlRecOn l f (refl s) fun t ht a _ => ht.trans (hf t a)

variable (h : Steady s t) (c : ClassId)
include h

theorem head : (t.store.get c).head = (s.store.get c).head :=
  BoundClass.head_eq_of_ties (h.quiet.ties c)

theorem name : (t.store.get c).name = (s.store.get c).name :=
  congrArg Entry.localName (BoundClass.entry_eq_of_head (h.head c))

theorem isTypedef : (t.store.get c).isTypedef = (s.store.get c).isTypedef :=
  congrArg ClassHead.isTypedef (h.head c)

omit c in
theorem isRemoved (f : Function) : t.store.isRemoved t.db f = s.store.isRemoved s.db f := by
  have hlive : t.store.isLive = s.store.isLive := (Settling.of_quiet h.quiet : Settling [] s t).isLive
  unfold ClassStore.isRemoved ClassStore.modsOf ClassStore.follow?
  rw [hlive]
  cases f.implementing?.filter s.store.isLive with
  | none =>
    dsimp only
    unfold Database.globalModsFor
    rw [h.removals.globalMods]
  | some c =>
    dsimp only
    rw [BoundClass.entry_eq_of_head (h.head c)]
    exact h.removals.removals _ _

end Steady

theorem argumentEntry_steady (s : State) (c template : ClassId) (name : String) :
    Steady s (argumentEntry s c template name).2 := by
  refine ⟨argumentEntry_quiet s c template name, ?_⟩
  unfold argumentEntry
  split
  · split
    · exact .refl s.db
    · have hadded : s.db.SameMods (s.db.add name (.enumValue name none)).2 := .add s.db name _
      generalize s.db.add name (.enumValue name none) = added at hadded ⊢
      obtain ⟨e, db⟩ := added
      exact .of_mods (hadded.trans (.setCodegen db e noCode))
  · exact .refl s.db

theorem bindArguments_steady (c template : ClassId) (t : TypeExpr) (l : List TypeExpr)
    (s : State) : Steady s (bindArguments c template t l s).2 := by
  induction l generalizing s with
  | nil => exact .refl s
  | cons a l ih =>
    have hentry := argumentEntry_steady s c template a.qualifiedName
    unfold bindArguments
    split
    · next u hu =>
      rw [hu] at hentry
      have hwarned : ∀ w, Steady u (u.warn w) := fun w => ⟨(Quiet.refl u).warn w, .refl u.db⟩
      exact (hentry.trans (hwarned _)).trans (ih _)
    · next e u hu =>
      rw [hu] at hentry
      exact hentry.trans (ih u)

theorem bindInstance_steady (i t : ClassId) (written : TypeExpr) (s : State) :
    Steady s (bindInstance i t written s).2 := by
  refine Steady.trans ⟨(Quiet.refl s).modifyClass i fun c => ?_, .refl s.db⟩
    (bindArguments_steady i t written written.args _)
  split <;> rfl

theorem takesOver_iff {s : State} {c : BoundClass} {f : Function} : takesOver s c f = true ↔
    s.store.isRemoved s.db f = false ∧ c.hasFunction f.name = false ∧
      (f.isConstructor = false ∨ c.isTypedef = true) := by
  unfold takesOver
  simp only [Bool.and_eq_true, Bool.or_eq_true, Bool.not_eq_true', and_assoc]

/-- The modifications of a function that is taken over remove nothing. -/
theorem inheritFunction_steady (env : Env) (i : ClassId) (template : BoundClass)
    (bindings : List BoundType) (s : State) (f : Function) :
    Steady s (inheritFunction env i template bindings s f) := by
  refine ⟨inheritFunction_quiet env i template bindings s f, ?_⟩
  unfold inheritFunction
  dsimp only
  split
  · next htakes =>
    have hkept : ∀ m ∈ s.store.modsOf s.db f, m.isRemoved = false := fun m hm =>
      Bool.eq_false_of_not_eq_true (List.any_eq_false.mp (takesOver_iff.mp htakes).1 m hm)
    split
    · unfold warnUninstantiable
      split <;> exact .refl s.db
    · show s.db.SameRemovals (State.warnAll _ _).db
      rw [State.db_warnAll]
      refine .foldlAddMod _ (fun m hm => ?_) s.db
      obtain ⟨m', hm', rfl⟩ := List.mem_map.mp hm
      exact hkept m' hm'
  · exact .refl s.db

/-! ### Functions of one name -/

/-- The function can be taken over by a class, as far as the class has none of its name. -/
structure Offered (env : Env) (bindings : List BoundType) (s : State) (i : ClassId)
    (f : Function) : Prop where
  kept : s.store.isRemoved s.db f = false
  allowed : f.isConstructor = false ∨ (s.store.get i).isTypedef = true
  instantiable : ∃ g, instantiateFunction bindings env.config.maxTemplateDepth f = .ok g

/-- The name that a function has once a class has taken it over. -/
def takenName (c : BoundClass) (f : Function) : String := if f.isConstructor then c.name else f.name

theorem Offered.steady {env : Env} {bindings : List BoundType} {s t : State} {i : ClassId}
    {f : Function} (h : Offered env bindings t i f) (hs : Steady s t) :
    Offered env bindings s i f := by
  obtain ⟨hkept, hallowed, hinstantiable⟩ := h
  rw [hs.isRemoved] at hkept
  rw [hs.isTypedef] at hallowed
  exact ⟨hkept, hallowed, hinstantiable⟩

section
variable {env : Env} {i : ClassId} {template : BoundClass} {bindings : List BoundType} {s : State}
  {f : Function} (hlt : i < s.store.classes.size)

theorem hasFunction_iff {c : BoundClass} {n : String} :
    c.hasFunction n = true ↔ c.functionsNamed n ≠ [] := by
  unfold BoundClass.hasFunction BoundClass.functionsNamed
  rw [List.any_eq_true, ne_eq, List.filter_eq_nil_iff]
  push Not
  rfl

theorem functionsNamed_addFunction_self (c : BoundClass) (f : Function) :
    (c.addFunction f).functionsNamed f.name = c.functionsNamed f.name ++ [f] := by
  show (c.functions ++ [f]).filter _ = _
  rw [List.filter_append, List.filter_singleton, beq_self_eq_true]
  rfl

theorem functionsNamed_addFunction_of_ne (c : BoundClass) {f : Function} {n : String}
    (h : f.name ≠ n) : (c.addFunction f).functionsNamed n = c.functionsNamed n := by
  show (c.functions ++ [f]).filter _ = _
  rw [List.filter_append, List.filter_singleton, beq_eq_false_iff_ne.mpr h]
  exact List.append_nil _

theorem takenName_congr {c d : BoundClass} (h : d.name = c.name) :
    takenName d f = takenName c f := by
  unfold takenName
  rw [h]

theorem inherited_congr {c d : BoundClass} (h : d.name = c.name) (mods : List FunctionMod)
    (g : Function) : inherited i d template mods g = inherited i c template mods g := by
  unfold inherited adaptFunction
  rw [h]

theorem name_adaptFunction (c : BoundClass) (f : Function) :
    (adaptFunction i c f).name = takenName c f := by
  have howner : (f.setOwner i).isConstructor = f.isConstructor := rfl
  unfold adaptFunction takenName
  dsimp only
  rw [howner]
  split <;> rfl

theorem name_inherited {g : Function}
    (hg : instantiateFunction bindings env.config.maxTemplateDepth f = .ok g) (c : BoundClass)
    (mods : List FunctionMod) : (inherited i c template mods g).name = takenName c f := by
  unfold instantiateFunction at hg
  obtain ⟨returnType?, -, hg⟩ := Error.bind_eq_ok hg
  obtain ⟨args, -, hg⟩ := Error.bind_eq_ok hg
  cases hg
  exact name_adaptFunction c _

include hlt

/-- A function that does not bring a name leaves the functions of that name alone. -/
theorem functionsNamed_inheritFunction {n : String} (h : Offered env bindings s i f →
    takenName (s.store.get i) f = n → (s.store.get i).hasFunction f.name = true) :
    ((inheritFunction env i template bindings s f).store.get i).functionsNamed n =
      (s.store.get i).functionsNamed n := by
  rcases inheritFunction_cases env i template bindings s f with
    ⟨-, hstore⟩ | ⟨g, mods, htakes, hg, hstore⟩
  · rw [hstore]
  · obtain ⟨hkept, hnew, hallowed⟩ := takesOver_iff.mp htakes
    rw [hstore, ClassStore.get_modify, if_pos ⟨rfl, hlt⟩]
    refine functionsNamed_addFunction_of_ne _ fun hname => ?_
    rw [name_inherited hg] at hname
    rw [h ⟨hkept, hallowed, g, hg⟩ hname] at hnew
    cases hnew

omit hlt in
theorem inheritFunction_of_takesOver (template : BoundClass) {g : Function}
    (htakes : takesOver s (s.store.get i) f = true)
    (hg : instantiateFunction bindings env.config.maxTemplateDepth f = .ok g) :
    ∃ mods, (inheritFunction env i template bindings s f).store =
      s.store.modify i (·.addFunction (inherited i (s.store.get i) template mods g)) := by
  rcases inheritFunction_cases env i template bindings s f with
    ⟨hnot | ⟨e, he⟩, -⟩ | ⟨g', mods, -, hg', hstore⟩
  · rw [htakes] at hnot
    cases hnot
  · rw [hg] at he
    cases he
  · obtain rfl := Except.ok.inj (hg.symm.trans hg')
    exact ⟨mods, hstore⟩

/-- Functions of a name stay the only ones while no function brings it. -/
theorem functionsNamed_foldl {n : String} {l : List Function}
    (h : ∀ p ∈ l, Offered env bindings s i p → takenName (s.store.get i) p = n →
      p.name = n ∧ (s.store.get i).hasFunction n = true) :
    ((l.foldl (inheritFunction env i template bindings) s).store.get i).functionsNamed n =
      (s.store.get i).functionsNamed n := by
  induction l generalizing s with
  | nil => rfl
  | cons p l ih =>
    have hsteady := inheritFunction_steady env i template bindings s p
    have hstep : ((inheritFunction env i template bindings s p).store.get i).functionsNamed n =
        (s.store.get i).functionsNamed n := by
      refine functionsNamed_inheritFunction hlt fun hoffered hname => ?_
      obtain ⟨hp, hhas⟩ := h p List.mem_cons_self hoffered hname
      rwa [hp]
    rw [List.foldl_cons, ih (hsteady.quiet.size ▸ hlt) fun q hq hoffered hname => ?_, hstep]
    rw [takenName_congr (hsteady.name i)] at hname
    obtain ⟨hq, hhas⟩ := h q (List.mem_cons_of_mem p hq) (hoffered.steady hsteady) hname
    refine ⟨hq, hasFunction_iff.mpr ?_⟩
    rw [hstep]
    exact hasFunction_iff.mp hhas

/-- The first function of a template that brings a name is taken over, and unless the class is a
typedef it stays the only one of that name. -/
theorem functionsNamed_overload {pre post : List Function} {g : Function}
    (hnew : (s.store.get i).hasFunction f.name = false)
    (hpre : ∀ p ∈ pre, Offered env bindings s i p → takenName (s.store.get i) p ≠ f.name)
    (hkept : s.store.isRemoved s.db f = false) (hmember : f.isConstructor = false)
    (hg : instantiateFunction bindings env.config.maxTemplateDepth f = .ok g) :
    ∃ mods, let taken := inherited i (s.store.get i) template mods g
      let t := (pre ++ f :: post).foldl (inheritFunction env i template bindings) s
      taken ∈ (t.store.get i).functions ∧ taken.name = f.name ∧
        ((s.store.get i).isTypedef = false → (t.store.get i).functionsNamed f.name = [taken]) := by
  have hbefore : Steady s (pre.foldl (inheritFunction env i template bindings) s) :=
    .foldl (inheritFunction_steady env i template bindings) pre s
  have hnone : ((pre.foldl (inheritFunction env i template bindings) s).store.get i).functionsNamed
      f.name = (s.store.get i).functionsNamed f.name :=
    functionsNamed_foldl hlt fun p hp hoffered hname => absurd hname (hpre p hp hoffered)
  rw [List.foldl_append, List.foldl_cons]
  generalize pre.foldl (inheritFunction env i template bindings) s = u at hbefore hnone ⊢
  have hlt' : i < u.store.classes.size := hbefore.quiet.size ▸ hlt
  have hnone : (u.store.get i).functionsNamed f.name = [] := by
    rw [hnone]
    by_contra hsome
    rw [hasFunction_iff.mpr hsome] at hnew
    cases hnew
  have htakes : takesOver u (u.store.get i) f = true := by
    refine takesOver_iff.mpr ⟨(hbefore.isRemoved f).trans hkept, ?_, .inl hmember⟩
    rw [← Bool.not_eq_true, hasFunction_iff, hnone]
    exact fun hne => hne rfl
  obtain ⟨mods, hstore⟩ := inheritFunction_of_takesOver template htakes hg
  rw [inherited_congr (hbefore.name i)] at hstore
  have hname : (inherited i (s.store.get i) template mods g).name = f.name :=
    (name_inherited hg _ mods).trans (if_neg (Bool.eq_false_iff.mp hmember))
  have hsteady := inheritFunction_steady env i template bindings u f
  generalize inheritFunction env i template bindings u f = v at hstore hsteady ⊢
  have hget : v.store.get i =
      (u.store.get i).addFunction (inherited i (s.store.get i) template mods g) := by
    rw [hstore, ClassStore.get_modify, if_pos ⟨rfl, hlt'⟩]
  have honly : (v.store.get i).functionsNamed f.name =
      [inherited i (s.store.get i) template mods g] := by
    rw [hget, ← hname, functionsNamed_addFunction_self, hname, hnone]
    rfl
  refine ⟨mods, ?_, hname, fun htypedef => ?_⟩
  · refine List.foldlRecOn (motive := fun t : State => _ ∈ (t.store.get i).functions) post _ ?_
      fun t ht p _ => mem_functions_inheritFunction env i template bindings p ht
    rw [hget]
    exact List.mem_append_right _ (List.mem_singleton_self _)
  · rw [functionsNamed_foldl (hsteady.quiet.size ▸ hlt') fun p _ hoffered hp => ?_, honly]
    have hall := hbefore.trans hsteady
    have hallowed := hoffered.allowed
    rw [hall.isTypedef, htypedef] at hallowed
    refine ⟨?_, hasFunction_iff.mpr (honly ▸ List.cons_ne_nil _ _)⟩
    rwa [takenName, if_neg (Bool.eq_false_iff.mp (hallowed.resolve_right Bool.false_ne_true))]
      at hp

end

/-! ### Signatures -/

/-- Marking the type as an array leaves its spelling: it is none yet, cannot be marked, or is marked
already. -/
def SpelledByPointer (t : BoundType) : Prop :=
  t.element? = none ∨ t.pointers = 0 ∨ t.usage = .nativePointerAsArray

/-- A pointer that is marked as an array is spelled as before. -/
theorem signature_asArray {t u : BoundType} (h : t.asArray = .ok u) (ht : SpelledByPointer t) :
    u.signature = t.signature ∧ SpelledByPointer u := by
  obtain ⟨entry, c, v, p, r, args, element?, count?, usage, written, template?⟩ := t
  unfold BoundType.asArray at h
  split at h
  · cases h
  · next hpointer =>
    cases h
    refine ⟨?_, .inr (.inr rfl)⟩
    cases element? with
    | none => simp [BoundType.signature, String.append_assoc]
    | some e =>
      have hmarked := (ht.resolve_left (Option.some_ne_none e)).resolve_left hpointer
      obtain rfl : usage = .nativePointerAsArray := hmarked
      simp [BoundType.signature]

theorem signature_inherited {i : ClassId} {c template : BoundClass} {mods : List FunctionMod}
    {g : Function} (hmember : g.isConstructor = false)
    (hplain : ∀ a ∈ g.args, SpelledByPointer a.type) :
    (inherited i c template mods g).signature = g.signature := by
  have hadapt : adaptFunction i c g = g.setOwner i := by
    unfold adaptFunction
    exact if_neg (Bool.eq_false_iff.mp hmember)
  have hsame : List.Forall₂ (fun a b : Argument => b.type.signature = a.type.signature ∧
      SpelledByPointer b.type) g.args (markArrays c.name template.name mods g.args).1 := by
    refine forall₂_markArrays (r := fun t u => u.signature = t.signature ∧ SpelledByPointer u)
      (fun {t u v} htu huv => ?_) (List.forall₂_same.mpr fun a ha => ⟨rfl, hplain a ha⟩) _ _ _
    obtain ⟨hspelled, hkind⟩ := htu
    obtain ⟨hspelled', hmarked⟩ := signature_asArray huv hkind
    exact ⟨hspelled'.trans hspelled, hmarked⟩
  have hmap : (markArrays c.name template.name mods g.args).1.map (·.type.signature) =
      g.args.map (·.type.signature) := by
    rw [← List.forall₂_eq_eq_eq, List.forall₂_map_left_iff, List.forall₂_map_right_iff]
    exact hsame.flip.imp fun _ _ h => h.1
  unfold inherited
  rw [hadapt]
  show Function.signature _ = g.signature
  unfold Function.signature
  show Signature.normalize (g.declaredName ++ "(" ++ Text.joinWith ","
    ((markArrays c.name template.name mods g.args).1.map (·.type.signature)) ++ ")" ++ _) = _
  rw [hmap]
  rfl

/-! ### Instances -/

theorem functions_inheritField (env : Env) (i : ClassId) (template : BoundClass)
    (bindings : List BoundType) (s : State) (f : Field) (c : ClassId) :
    ((inheritField env i template bindings s f).store.get c).functions =
      (s.store.get c).functions := by
  unfold inheritField
  dsimp only
  split
  · rfl
  · split
    · unfold warnUninstantiable
      split <;> rfl
    · show ((s.store.modify i _).get c).functions = _
      rw [ClassStore.get_modify]
      split <;> rfl

/-- Fields and links come after the functions. -/
theorem functions_inheritTemplate {i : ClassId} {s : State} (hlt : i < s.store.classes.size)
    (env : Env) (t : ClassId) (written : TypeExpr) :
    ((inheritTemplate env i t written s).store.get i).functions =
      ((takeFunctions env i t written s).store.get i).functions := by
  rw [get_inheritTemplate hlt, BoundClass.functions_eq_of_core (core_takeLinks _ t _ _)]
  exact List.foldlRecOn (motive := fun u : State => (u.store.get i).functions =
    ((takeFunctions env i t written s).store.get i).functions) _ _ rfl
    fun u hu f _ => (functions_inheritField env i _ _ u f i).trans hu

theorem functions_bindInstance (i t : ClassId) (written : TypeExpr) (s : State) (c : ClassId) :
    ((bindInstance i t written s).2.store.get c).functions = (s.store.get c).functions := by
  unfold bindInstance
  rw [store_bindArguments]
  show ((s.store.modify i _).get c).functions = _
  rw [ClassStore.get_modify]
  split
  · split <;> rfl
  · rfl

/-- Of the functions of a template with one name, a class that has none of that name takes over the
first that is not removed and has an instance, with the signature of that instance; unless the class
is a typedef, that one stays the only one. -/
theorem overload_taken (env : Env) (i t : ClassId) (written : TypeExpr) (s : State)
    {pre post : List Function} {f g : Function} (hi : i < s.store.classes.size)
    (hfunctions : (s.store.get t).functions = pre ++ f :: post)
    (hown : (s.store.get i).hasFunction f.name = false)
    (hkept : s.store.isRemoved s.db f = false) (hmember : f.isConstructor = false)
    (hg : instantiateFunction (bindInstance i t written s).1 env.config.maxTemplateDepth f = .ok g)
    (hpre : ∀ p ∈ pre, Offered env (bindInstance i t written s).1 s i p →
      takenName (s.store.get i) p ≠ f.name) :
    ∃ mods, let taken := inherited i (s.store.get i) (s.store.get t) mods g
      let c := (inheritTemplate env i t written s).store.get i
      taken ∈ c.functions ∧ taken.name = f.name ∧
        ((∀ a ∈ g.args, SpelledByPointer a.type) → taken.signature = g.signature) ∧
        ((s.store.get i).isTypedef = false → c.functionsNamed f.name = [taken]) := by
  have hbound := bindInstance_steady i t written s
  have hsame := functions_bindInstance i t written s i
  have hresult := functions_inheritTemplate hi env t written
  unfold takeFunctions at hresult
  generalize (bindInstance i t written s).1 = bindings at hg hpre hresult
  generalize (bindInstance i t written s).2 = u at hbound hsame hresult
  have hnew : (u.store.get i).hasFunction f.name = false := by
    unfold BoundClass.hasFunction at hown ⊢
    rw [hsame, hown]
  have hfirst : ∀ p ∈ pre, Offered env bindings u i p →
      takenName (u.store.get i) p ≠ f.name := by
    intro p hp hoffered
    rw [takenName_congr (hbound.name i)]
    exact hpre p hp (hoffered.steady hbound)
  obtain ⟨mods, hmem, hname, honly⟩ := functionsNamed_overload (hbound.quiet.size ▸ hi) hnew hfirst
    ((hbound.isRemoved f).trans hkept) hmember hg
  rw [inherited_congr (hbound.name i)] at hmem hname honly
  rw [← hfunctions] at hmem honly
  have hmember' : g.isConstructor = false := by
    unfold Function.isConstructor at hmember ⊢
    rw [(instantiateFunction_made hg).1]
    exact hmember
  refine ⟨mods, ?_, hname, signature_inherited hmember', fun htypedef => ?_⟩
  · rw [hresult]
    exact hmem
  · unfold BoundClass.functionsNamed
    rw [hresult]
    exact honly ((hbound.isTypedef i).trans htypedef)

def putRules : Database :=
  let (_, db) := Database.initial.add "int" .primitive
  let (_, db) := db.add "double" .primitive
  let (_, db) := db.add "Holder" (.complex .container {})
  (db.add "Box" (.complex .object {})).2

/-- A template with two functions of one name, and an instance. -/
def putHeader : Header where
  global.classes := [
    { decls := { name := "Holder<T>", functions := [
        { name := "put", args := [⟨"", .ofName "int", none⟩] },
        { name := "put", args := [⟨"", .ofName "double", none⟩] }] }
      templateParams := ["T"] },
    { decls := { name := "Box" }, bases := [{ name := "Holder<int>" }] }]

theorem overload_taken_put :
    let env : Env := .make {} putHeader
    let s := (fillAll env).after ((declareAll env).after { db := putRules })
    let written : TypeExpr := { name := ["Holder"], args := [.ofName "int"] }
    let c := (inheritTemplate env 1 0 written s).store.get 1
    ∃ taken, c.functionsNamed "put" = [taken] ∧ taken.signature = "put(int)" := by
  intro env s written c
  have hfacts : ((s.store.get 0).functions.head?.any (fun f =>
      decide (f.name = "put") && !s.store.isRemoved s.db f && !f.isConstructor &&
      (instantiateFunction (bindInstance 1 0 written s).1
          env.config.maxTemplateDepth f).toOption.any fun g =>
        g.args.all (·.type.element?.isNone) && decide (g.signature = "put(int)")) &&
      decide (1 < s.store.classes.size) && !(s.store.get 1).hasFunction "put" &&
      !(s.store.get 1).isTypedef) = true := by decide +kernel
  simp only [Bool.and_eq_true, decide_eq_true_eq, Bool.not_eq_true', Option.any_eq_true,
    List.all_eq_true, Option.isNone_iff_eq_none] at hfacts
  obtain ⟨⟨⟨⟨f, hf, ⟨⟨⟨hname, hkept⟩, hmember⟩, g, hg, hplain, hsignature⟩⟩, hsize⟩, hown⟩,
    htypedef⟩ := hfacts
  obtain ⟨post, hpost⟩ := List.head?_eq_some_iff.mp hf
  have hfunctions : (s.store.get 0).functions = [] ++ f :: post := hpost
  have hg : instantiateFunction (bindInstance 1 0 written s).1 env.config.maxTemplateDepth f =
      .ok g := by
    cases h : instantiateFunction (bindInstance 1 0 written s).1 env.config.maxTemplateDepth f with
    | error e =>
      rw [h] at hg
      cases hg
    | ok g' =>
      rw [h] at hg
      exact congrArg Except.ok (Option.some.inj hg)
  obtain ⟨mods, -, -, hsame, honly⟩ := overload_taken env 1 0 written s hsize hfunctions
    (hname ▸ hown) hkept hmember hg fun p hp => absurd hp List.not_mem_nil
  rw [hname] at honly
  exact ⟨_, honly htypedef, (hsame fun a ha => .inl (hplain a ha)).trans hsignature⟩

/-- Functions of one name hide one another, though no class declares one of them again. -/
theorem overload_hidden :
    ∃ m, (assemble {} putHeader putRules).result = .ok m ∧
      (m.store.get 1).templateBase? = some 0 ∧
      (m.store.get 0).functions.map (·.signature) = ["put(int)", "put(double)"] ∧
      (m.store.get 1).functions.map (·.signature) = ["put(int)", "Box()"] := by
  obtain ⟨m, hm, hfacts⟩ := exists_model_of_any (p := fun m =>
    decide ((m.store.get 1).templateBase? = some 0) &&
    decide ((m.store.get 0).functions.map (·.signature) = ["put(int)", "put(double)"]) &&
    decide ((m.store.get 1).functions.map (·.signature) = ["put(int)", "Box()"]))
    (show (assemble {} putHeader putRules).result.toOption.any _ = true by decide +kernel)
  simp only [Bool.and_eq_true, decide_eq_true_eq] at hfacts
  obtain ⟨⟨hbase, htemplate⟩, hclass⟩ := hfacts
  exact ⟨m, hm, hbase, htemplate, hclass⟩

end Assembly
end BindingModel
