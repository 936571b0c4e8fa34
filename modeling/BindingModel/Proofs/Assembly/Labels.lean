import BindingModel.Assembly.Construction
import BindingModel.Assembly.Inheritance
import BindingModel.Assembly.Operators
import BindingModel.Proofs.Error
import Mathlib.Data.List.Basic

/-! Arguments are numbered by their positions and have names, in whatever way a function comes
about: from a declaration, by a rule, implicitly, as an instance of another or by taking arguments
away. -/
namespace BindingModel
namespace Api

/-- Every argument has its position as index. -/
def Numbered (args : List Argument) : Prop := args.map (·.index) = List.range args.length

structure Labelled (args : List Argument) : Prop where
  numbered : Numbered args
  named : ∀ a ∈ args, a.name ≠ ""

def Argument.label (a : Argument) : Nat × String := (a.index, a.name)

variable {args : List Argument} {f g : Function} {i : ClassId}

theorem Numbered.index_eq (h : Numbered args) {k : Nat} {a : Argument} (ha : args[k]? = some a) :
    a.index = k := by
  have hk : (args.map (·.index))[k]? = some a.index := by simp [ha]
  rw [h, List.getElem?_eq_some_iff] at hk
  obtain ⟨hlt, hk⟩ := hk
  rw [← hk, List.getElem_range]

theorem Numbered.of_map_eq {args' : List Argument} (h : Numbered args)
    (hmap : args'.map (·.index) = args.map (·.index)) : Numbered args' := by
  have hlength : args'.length = args.length := by simpa using congrArg List.length hmap
  unfold Numbered
  rw [hmap, h, hlength]

theorem Labelled.of_map_eq {args' : List Argument} (h : Labelled args)
    (hmap : args'.map Argument.label = args.map Argument.label) : Labelled args' := by
  refine ⟨h.numbered.of_map_eq ?_, fun a ha => ?_⟩
  · have hfst := congrArg (List.map Prod.fst) hmap
    rwa [List.map_map, List.map_map] at hfst
  · have hmem : a.label ∈ args'.map Argument.label := List.mem_map_of_mem ha
    rw [hmap] at hmem
    obtain ⟨b, hb, he⟩ := List.mem_map.mp hmem
    rw [← (Prod.mk.inj he).2]
    exact h.named b hb

theorem Labelled.label_eq (h : Labelled args) {k : Nat} {a : Argument} (ha : args[k]? = some a) :
    a.index = k ∧ a.name ≠ "" :=
  ⟨h.numbered.index_eq ha, h.named a (List.mem_of_getElem? ha)⟩

theorem Labelled.nil : Labelled [] := ⟨rfl, fun _ ha => by cases ha⟩

namespace Function

/-- Both have the same owner. -/
structure SameOwner (f g : Function) : Prop where
  declaring : f.declaring? = g.declaring?
  implementing : f.implementing? = g.implementing?

/-- The function belongs to the class, is no destructor and has labelled arguments. -/
structure BelongsTo (f : Function) (i : ClassId) : Prop where
  declaring : f.declaring? = some i
  implementing : f.implementing? = some i
  kind_ne : f.kind ≠ .destructor
  labelled : Labelled f.args

/-- The function belongs to no class and has labelled arguments. -/
structure IsFree (f : Function) : Prop where
  declaring : f.declaring? = none
  implementing : f.implementing? = none
  labelled : Labelled f.args

theorem BelongsTo.of_eq (h : f.BelongsTo i) (hg : g.SameOwner f) (hkind : g.kind ≠ .destructor)
    (hargs : g.args = f.args) : g.BelongsTo i :=
  ⟨hg.declaring.trans h.declaring, hg.implementing.trans h.implementing, hkind, hargs ▸ h.labelled⟩

end Function
end Api

namespace Assembly
open Api Header

/-! ### What is done to arguments -/

section
variable {α : Type} {g : Argument → α} {args : List Argument}

theorem map_mapIdx_of_eq {f : Nat → Argument → Argument} (hf : ∀ i a, g (f i a) = g a) :
    (args.mapIdx f).map g = args.map g := by
  apply List.ext_getElem?
  intro i
  simp only [List.getElem?_map, List.getElem?_mapIdx, Option.map_map]
  congr 1
  funext a
  exact hf i a

theorem map_editArgument (position : Nat) {f : Argument → Argument} (hf : ∀ a, g (f a) = g a) :
    (editArgument position f args).map g = args.map g := by
  unfold editArgument
  split
  · rfl
  · next i =>
    apply List.ext_getElem?
    intro k
    rw [List.getElem?_map, List.getElem?_map, List.getElem?_modify]
    cases args[k]? with
    | none => rfl
    | some a =>
      simp only [Option.map_eq_map, Option.map_some, Option.some.injEq]
      split
      · exact hf a
      · rfl

theorem map_markArgument (hf : ∀ (a : Argument) removed ownership?,
      g { a with removed, ownership? } = g a)
    (ht : ∀ (a : Argument) type, g { a with type } = g a) (className : String)
    (m : ArgumentMod) : (markArgument className args m).1.map g = args.map g := by
  have hedit : (editArgument m.index (fun a => { a with
      removed := a.removed || m.removed
      ownership? := m.ownership?.or a.ownership? }) args).map g = args.map g :=
    map_editArgument m.index fun a => hf a _ _
  unfold markArgument
  dsimp only
  split
  · next i _ _ =>
    split
    · split
      · rw [← hedit]
        exact map_editArgument (i + 1) fun a => ht a _
      · exact hedit
    · exact hedit
  · exact hedit

end

theorem map_index_fixArgumentNames (mods : List FunctionMod) (args : List Argument) :
    (fixArgumentNames mods args).map (·.index) = args.map (·.index) := by
  unfold fixArgumentNames
  rw [map_mapIdx_of_eq]
  · refine List.foldlRecOn (motive := fun l : List Argument =>
      l.map (·.index) = args.map (·.index)) _ _ rfl ?_
    intro l hl m _
    split
    · rwa [map_editArgument]
      intro a
      rfl
    · exact hl
  · intro i a
    split <;> rfl

/-- After its arguments are named, none of a function is without a name. -/
theorem name_ne_of_mem_fixArgumentNames {mods : List FunctionMod} {args : List Argument}
    {a : Argument} (ha : a ∈ fixArgumentNames mods args) : a.name ≠ "" := by
  unfold fixArgumentNames at ha
  obtain ⟨i, hi, rfl⟩ := List.mem_mapIdx.mp ha
  split
  · intro h
    have hlength := congrArg String.length h
    simp at hlength
  · assumption

theorem labelled_fixArgumentNames (mods : List FunctionMod) {args : List Argument}
    (h : Numbered args) : Labelled (fixArgumentNames mods args) :=
  ⟨h.of_map_eq (map_index_fixArgumentNames mods args), fun _ => name_ne_of_mem_fixArgumentNames⟩

theorem map_index_markArguments (className : String) (mods : List FunctionMod)
    (args : List Argument) :
    (markArguments className mods args).1.map (·.index) = args.map (·.index) := by
  unfold markArguments
  refine List.foldlRecOn (motive := fun r : List Argument × List Warning =>
    r.1.map (·.index) = args.map (·.index)) _ _ rfl ?_
  intro r hr m _
  exact (map_markArgument (fun _ _ _ => rfl) (fun _ _ => rfl) className m).trans hr

theorem map_index_fixArgumentDefault (mods : List FunctionMod) (class? : Option BoundClass)
    (args : List Argument) :
    (args.mapIdx fun i a => fixArgumentDefault mods class? (i + 1) a).map (·.index) =
      args.map (·.index) := by
  refine map_mapIdx_of_eq fun i a => ?_
  unfold fixArgumentDefault
  dsimp only
  split
  · split <;> rfl
  · rfl

/-- Modifications leave the owner, the kind and the numbers; then every argument has a name. -/
theorem editArguments_made (mods : List FunctionMod) (class? : Option BoundClass) {f : Function}
    (h : Numbered f.args) :
    (editArguments mods class? f).1.SameOwner f ∧ (editArguments mods class? f).1.kind = f.kind ∧
      Labelled (editArguments mods class? f).1.args := by
  refine ⟨⟨rfl, rfl⟩, rfl, labelled_fixArgumentNames mods (h.of_map_eq ?_)⟩
  exact (map_index_markArguments _ mods _).trans (map_index_fixArgumentDefault mods class? f.args)

/-! ### Functions of declarations -/

namespace Draft
variable {d : Draft}

theorem map_index_bindArguments {key : String} {i : Nat} {l : List ArgumentDecl}
    {args : List Argument} {ws : List Warning} (h : d.bindArguments key i l = .ok (args, ws)) :
    args.map (·.index) = List.range' i args.length := by
  induction l generalizing i args ws with
  | nil =>
    cases h
    rfl
  | cons a l ih =>
    unfold bindArguments at h
    split at h
    · cases hrest : d.bindArguments key (i + 1) l with
      | error e =>
        rw [hrest] at h
        cases h
      | ok r =>
        rw [hrest] at h
        cases h
        simp [ih hrest, Argument.make, List.range'_succ]
    · cases h
      rfl
    · cases h

theorem numbered_varargs {args : List Argument} (h : Numbered args) (f : FunctionDecl) :
    Numbered (args ++ d.varargs f args.length) := by
  unfold varargs
  split
  · cases d.lookup.db.findType? "..." with
    | none => simpa using h
    | some entry =>
      unfold Numbered at h ⊢
      simp [h, Argument.make, List.range_succ]
  · simpa using h

theorem finish_made {f : Function} (h : Numbered f.args)
    (hf : f.declaring? = none ∧ f.implementing? = none) :
    (d.finish f).1.declaring? = d.class? ∧ (d.finish f).1.implementing? = d.class? ∧
      Labelled (d.finish f).1.args := by
  unfold finish
  dsimp only
  split
  · next c hc =>
    obtain ⟨howner, -, hargs⟩ := editArguments_made
      (d.lookup.store.modsOf d.lookup.db (f.setOwner c)) d.classOf? (f := f.setOwner c) h
    exact ⟨howner.declaring.trans hc.symm, howner.implementing.trans hc.symm, hargs⟩
  · next hc =>
    obtain ⟨howner, -, hargs⟩ := editArguments_made
      (d.lookup.store.modsOf d.lookup.db f) d.classOf? (f := f) h
    exact ⟨howner.declaring.trans (hf.1.trans hc.symm),
      howner.implementing.trans (hf.2.trans hc.symm), hargs⟩

/-- A function that is made of a declaration belongs where the declaration stands. -/
theorem bind_made {f : FunctionDecl} {g : Function} (h : (d.bind f).1 = .built g) :
    g.declaring? = d.class? ∧ g.implementing? = d.class? ∧ Labelled g.args := by
  unfold bind at h
  dsimp only at h
  split at h
  · cases h
  · split at h
    · cases h
    · next args ws hargs =>
      cases h
      refine finish_made (numbered_varargs ?_ f) ⟨rfl, rfl⟩
      unfold Numbered
      rw [map_index_bindArguments hargs, List.range_eq_range']

/-- A declaration that is left out gives no function. -/
theorem screen?_ne_built (db : Database) (skipDeprecated : Bool) (f : FunctionDecl)
    (class? : Option BoundClass) (g : Function) :
    screen? db skipDeprecated f class? ≠ some (.built g) := by
  intro h
  unfold screen? at h
  dsimp only at h
  split at h
  · cases h
  split at h
  · cases h
  split at h
  · cases h
  split at h
  · cases h
  split at h
  · cases h
  split at h
  · cases h
  · cases h

theorem judge_made {skipDeprecated : Bool} {f : FunctionDecl} {g : Function}
    (h : (d.judge skipDeprecated f).1 = .built g) :
    g.declaring? = d.class? ∧ g.implementing? = d.class? ∧ Labelled g.args := by
  unfold judge at h
  split at h
  · next verdict hscreen =>
    obtain rfl : verdict = .built g := h
    exact absurd hscreen (screen?_ne_built _ _ f _ g)
  · exact bind_made h

end Draft

theorem State.verdict_judge {s t : State} {env : Env} {p : Place} {d : FunctionDecl} {f : Function}
    (h : s.judge env p d = (.built f, t)) :
    (Draft.judge ⟨s.lookup env, p.path, p.class?⟩ env.config.skipDeprecated d).1 = .built f := by
  unfold State.judge at h
  dsimp only at h
  split at h
  · next hverdict =>
    rw [hverdict] at h
    cases h
  · exact (Prod.mk.inj h).1

theorem judge_made {s t : State} {env : Env} {p : Place} {d : FunctionDecl} {f : Function}
    (h : s.judge env p d = (.built f, t)) :
    f.declaring? = p.class? ∧ f.implementing? = p.class? ∧ Labelled f.args :=
  Draft.judge_made (State.verdict_judge h)

/-! ### What is done to a function as a whole -/

/-- Both have the same owner, kind and arguments. -/
structure SameMaking (f g : Function) : Prop extends f.SameOwner g where
  kind : f.kind = g.kind
  args : f.args = g.args

namespace SameMaking
variable {f g h : Function}

theorem refl (f : Function) : SameMaking f f := ⟨⟨rfl, rfl⟩, rfl, rfl⟩

theorem trans (hf : SameMaking f g) (hg : SameMaking g h) : SameMaking f h :=
  ⟨⟨hf.declaring.trans hg.declaring, hf.implementing.trans hg.implementing⟩,
    hf.kind.trans hg.kind, hf.args.trans hg.args⟩

theorem belongsTo {i : ClassId} (hf : SameMaking f g) (hg : g.BelongsTo i) : f.BelongsTo i :=
  hg.of_eq hf.toSameOwner (hf.kind ▸ hg.kind_ne) hf.args

theorem isFree (hf : SameMaking f g) (hg : g.IsFree) : f.IsFree :=
  ⟨hf.declaring.trans hg.declaring, hf.implementing.trans hg.implementing, hf.args ▸ hg.labelled⟩

theorem settle (f : Function) (p : Policies) : SameMaking (f.settle p) f :=
  ⟨⟨rfl, rfl⟩, rfl, rfl⟩

theorem editFunctions (mods : List FunctionMod) (f : Function) :
    SameMaking (editFunctions mods f) f :=
  List.foldlRecOn (motive := fun g => SameMaking g f) mods editFunction (refl f)
    fun _ hg _ _ => ⟨⟨hg.declaring, hg.implementing⟩, hg.kind, hg.args⟩

theorem finishMember (s : State) (c : BoundClass) (f : Function) :
    SameMaking (finishMember s c f) f := by
  have hproperty : SameMaking (bindProperty c.properties f) f := by
    unfold bindProperty
    split
    · exact refl f
    · split
      · exact ⟨⟨rfl, rfl⟩, rfl, rfl⟩
      · exact refl f
  unfold Assembly.finishMember
  dsimp only
  generalize bindProperty c.properties f = g at hproperty
  refine trans ?_ ((editFunctions (s.store.modsOf s.db g) g).trans hproperty)
  unfold fixConversion
  split
  · split
    · exact ⟨⟨rfl, rfl⟩, rfl, rfl⟩
    · exact refl _
  · exact refl _

end SameMaking

/-! ### Functions of operators -/

theorem labelled_reindex {args : List Argument} (h : ∀ a ∈ args, a.name ≠ "") :
    Labelled (reindex args) := by
  constructor
  · unfold Numbered reindex
    apply List.ext_getElem <;> simp
  · intro a ha
    obtain ⟨i, hi, rfl⟩ := List.mem_mapIdx.mp ha
    exact h args[i] (List.getElem_mem hi)

theorem labelled_takeObject (objectFirst unary : Bool) {f : Function} (h : Labelled f.args) :
    Labelled (takeObject objectFirst unary f).args := by
  refine labelled_reindex fun a ha => h.named a ?_
  split at ha
  · exact List.mem_of_mem_tail ha
  · exact (List.dropLast_sublist _).subset ha

/-! ### Functions of rules -/

namespace Draft
variable {d : Draft}

theorem map_index_bindAdded {i : Nat} {l : List AddedArgument} {args : List Argument}
    (h : d.bindAdded i l = .ok args) : args.map (·.index) = List.range' i args.length := by
  induction l generalizing i args with
  | nil =>
    cases h
    rfl
  | cons a l ih =>
    unfold bindAdded at h
    cases htype : d.bindNamed a.type with
    | error e =>
      rw [htype] at h
      cases h
    | ok type =>
      cases hrest : d.bindAdded (i + 1) l with
      | error e =>
        rw [htype, hrest] at h
        cases h
      | ok rest =>
        rw [htype, hrest] at h
        cases h
        simp [ih hrest, Argument.make, List.range'_succ]

theorem reverseOperator_made {f g : Function} {ws : List Warning}
    (hg : d.reverseOperator f = (g, ws)) (h : Numbered f.args) :
    g.SameOwner f ∧ g.kind = f.kind ∧ Numbered g.args := by
  obtain rfl : (d.reverseOperator f).1 = g := by rw [hg]
  unfold reverseOperator
  split
  · split
    · exact ⟨⟨rfl, rfl⟩, rfl, h⟩
    · exact ⟨⟨rfl, rfl⟩, rfl, h⟩
    · next first second hargs =>
      split
      · refine ⟨⟨rfl, rfl⟩, rfl, ?_⟩
        rw [hargs] at h
        unfold Numbered at h ⊢
        simp_all [List.range_succ]
      · exact ⟨⟨rfl, rfl⟩, rfl, h⟩
    · exact ⟨⟨rfl, rfl⟩, rfl, h⟩
  · exact ⟨⟨rfl, rfl⟩, rfl, h⟩

theorem addedKind_made (c : BoundClass) {f : Function} (h : f.kind ≠ .destructor) :
    (addedKind c f).SameOwner f ∧ (addedKind c f).kind ≠ .destructor ∧
      (addedKind c f).args = f.args := by
  unfold addedKind
  split
  · split
    · refine ⟨⟨rfl, rfl⟩, ?_, rfl⟩
      dsimp only
      split <;> simp
    · exact ⟨⟨rfl, rfl⟩, by simp, rfl⟩
  · exact ⟨⟨rfl, rfl⟩, h, rfl⟩

theorem map_index_replaceDefault (mods : List FunctionMod) (args : List Argument) :
    (args.mapIdx fun i a => replaceDefault mods (i + 1) a).map (·.index) = args.map (·.index) := by
  refine map_mapIdx_of_eq fun i a => ?_
  unfold replaceDefault
  split <;> rfl

/-- Once its types are bound, an added function belongs where the rules add it. -/
theorem added_made {a : AddedFunction} {f : Function} {ws : List Warning}
    (h : d.added a = .ok (f, ws)) :
    f.declaring? = d.class? ∧ f.implementing? = d.class? ∧ f.kind ≠ .destructor ∧
      Labelled f.args := by
  unfold added at h
  extract_lets src rest at h
  -- With or without a return type to bind, the arguments come next.
  obtain ⟨returnType?, h⟩ : ∃ returnType?, rest returnType? = .ok (f, ws) := by
    split at h
    · exact ⟨none, h⟩
    · obtain ⟨type?, -, h⟩ := Error.bind_eq_ok h
      exact ⟨type?, h⟩
  obtain ⟨args, hargs, h⟩ := Error.bind_eq_ok h
  have hnumbered : Numbered args := by
    unfold Numbered
    rw [map_index_bindAdded hargs, List.range_eq_range']
  extract_lets g at h
  split at h
  next f₁ ws₁ hreverse =>
  obtain ⟨howner, hkind, hnumbered⟩ := reverseOperator_made hreverse hnumbered
  have hkind : f₁.kind ≠ .destructor := by
    rw [hkind]
    show Api.FunctionKind.normal ≠ .destructor
    decide
  split at h
  · next hnone =>
    cases h
    rw [hnone]
    exact ⟨howner.declaring, howner.implementing, hkind, labelled_fixArgumentNames [] hnumbered⟩
  · next i hsome =>
    extract_lets c f₂ mods args f₃ at h
    obtain ⟨howner, hkind, hargs⟩ := addedKind_made c (f := f₃) hkind
    cases h
    rw [hsome]
    refine ⟨howner.declaring, howner.implementing, hkind, ?_⟩
    rw [hargs]
    exact labelled_fixArgumentNames mods (hnumbered.of_map_eq (map_index_replaceDefault mods _))

end Draft

/-! ### Instances of functions -/

theorem mapM_instantiate_label {bindings : List BoundType} {maxDepth : Nat}
    {l args : List Argument} (h : l.mapM (fun a => do
      pure { a with type := ← BoundType.instantiate bindings maxDepth a.type }) = .ok args) :
    args.map Argument.label = l.map Argument.label := by
  have hmade := Error.forall₂_of_mapM h
  clear h
  induction hmade with
  | nil => rfl
  | cons hb _ ih =>
    obtain ⟨type, -, hb⟩ := Error.bind_eq_ok hb
    cases hb
    rw [List.map_cons, List.map_cons, ih]
    rfl

theorem instantiateFunction_made {bindings : List BoundType} {maxDepth : Nat} {f g : Function}
    (h : instantiateFunction bindings maxDepth f = .ok g) :
    g.kind = f.kind ∧ g.args.map Argument.label = f.args.map Argument.label := by
  unfold instantiateFunction at h
  obtain ⟨returnType?, -, h⟩ := Error.bind_eq_ok h
  obtain ⟨args, hargs, h⟩ := Error.bind_eq_ok h
  cases h
  exact ⟨rfl, mapM_instantiate_label hargs⟩

theorem map_label_markArrays (className templateName : String) (mods : List FunctionMod)
    (args : List Argument) :
    (markArrays className templateName mods args).1.map Argument.label =
      args.map Argument.label := by
  unfold markArrays
  refine List.foldlRecOn (motive := fun r : List Argument × List Warning =>
    r.1.map Argument.label = args.map Argument.label) _ _ rfl ?_
  intro r hr m _
  dsimp only
  split
  · exact hr
  · next i _ =>
    split
    · exact hr
    · split
      · next type _ =>
        exact (map_editArgument (i + 1) (f := fun a => { a with type }) fun _ => rfl).trans hr
      · exact hr

/-- What is taken over from a function with labelled arguments belongs to the class. -/
theorem belongsTo_adaptFunction {f g : Function} {j : ClassId} (hf : f.BelongsTo j)
    {bindings : List BoundType} {maxDepth : Nat}
    (hg : instantiateFunction bindings maxDepth f = .ok g) (i : ClassId) (c : BoundClass)
    (className templateName : String) (mods : List FunctionMod) :
    Function.BelongsTo { adaptFunction i c g with
      args := (markArrays className templateName mods (adaptFunction i c g).args).1 } i := by
  obtain ⟨hkind, hargs⟩ := instantiateFunction_made hg
  have hadapt : (adaptFunction i c g).declaring? = some i ∧
      (adaptFunction i c g).implementing? = some i ∧ (adaptFunction i c g).kind = g.kind ∧
      (adaptFunction i c g).args = g.args := by
    unfold adaptFunction
    dsimp only
    split <;> exact ⟨rfl, rfl, rfl, rfl⟩
  refine ⟨hadapt.1, hadapt.2.1, ?_, hf.labelled.of_map_eq ?_⟩
  · show (adaptFunction i c g).kind ≠ _
    rw [hadapt.2.2.1, hkind]
    exact hf.kind_ne
  · rw [map_label_markArrays, hadapt.2.2.2, hargs]

/-! ### Implicit constructors -/

theorem belongsTo_implicitConstructor (i : ClassId) (c : BoundClass) :
    (implicitConstructor i c).BelongsTo i :=
  ⟨rfl, rfl, by simp [implicitConstructor, Function.setOwner, Function.make], .nil⟩

theorem belongsTo_implicitCopy (i : ClassId) (c : BoundClass) (isPrivate : Bool) :
    (implicitCopy i c isPrivate).BelongsTo i := by
  refine ⟨rfl, rfl, by simp [implicitCopy, Function.setOwner, Function.make], rfl, fun a ha => ?_⟩
  obtain rfl := List.mem_singleton.mp ha
  simp [Argument.make]

end Assembly
end BindingModel
