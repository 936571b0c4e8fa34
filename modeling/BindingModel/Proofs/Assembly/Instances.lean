import BindingModel.Proofs.Api.Placeholders
import BindingModel.Proofs.Assembly.Bases
import BindingModel.Proofs.Assembly.Shelves

/-! What a class has taken over from the template that it is an instance of. -/
namespace BindingModel
open Api

namespace Assembly

/-! ### Instances of functions -/

theorem concreteElements_of_mem_bindArguments {c template : ClassId} {t : TypeExpr}
    {l : List TypeExpr} {s : State} {b : BoundType}
    (hb : b ∈ (bindArguments c template t l s).1) : b.ConcreteElements := by
  induction l generalizing s with
  | nil => cases hb
  | cons a l ih =>
    unfold bindArguments at hb
    split at hb
    · exact ih hb
    · rcases List.mem_cons.mp hb with rfl | hb
      · refine ⟨fun a ha => absurd ha List.not_mem_nil, fun e he => ?_⟩
        cases he
      · exact ih hb

/-- What becomes of an instance of a function in a class. -/
def inherited (i : ClassId) (c template : BoundClass) (mods : List FunctionMod) (g : Function) :
    Function :=
  let g := adaptFunction i c g
  { g with args := (markArrays c.name template.name mods g.args).1 }

/-- The rules once a class has the modifications of a template's function for the signature of its
copy. -/
def takenRules (i : ClassId) (s : State) (f g : Function) : Database :=
  let signature := (adaptFunction i (s.store.get i) g).signature
  let mods := (s.store.modsOf s.db f).map (·.forSignature signature)
  mods.foldl (·.addMod (s.store.get i).entry ·) s.db

/-- The modifications of a copy that a class takes over. -/
def takenMods (i : ClassId) (s : State) (f g : Function) : List FunctionMod :=
  s.store.modsOf (takenRules i s f g) (adaptFunction i (s.store.get i) g)

/-- A function is taken over, or the classes stay as they are. -/
theorem inheritFunction_taken (env : Env) (i : ClassId) (template : BoundClass)
    (bindings : List BoundType) (s : State) (f : Function) :
    ((takesOver s (s.store.get i) f = false ∨
        ∃ e, instantiateFunction bindings env.config.maxTemplateDepth f = .error e) ∧
      (inheritFunction env i template bindings s f).store = s.store) ∨
    ∃ g, takesOver s (s.store.get i) f = true ∧
      instantiateFunction bindings env.config.maxTemplateDepth f = .ok g ∧
      (inheritFunction env i template bindings s f).store = s.store.modify i
        (·.addFunction (inherited i (s.store.get i) template (takenMods i s f g) g)) ∧
      (inheritFunction env i template bindings s f).db = takenRules i s f g := by
  unfold inheritFunction
  dsimp only
  split
  · next htakes =>
    split
    · next e he =>
      refine .inl ⟨.inr ⟨e, he⟩, ?_⟩
      unfold warnUninstantiable
      split <;> rfl
    · next g hg =>
      refine .inr ⟨g, htakes, hg, ?_, ?_⟩
      · show (State.warnAll _ _).store.modify i _ = _
        rw [State.store_warnAll]
        rfl
      · show (State.warnAll _ _).db = _
        rw [State.db_warnAll]
        rfl
  · next hnot => exact .inl ⟨.inl (Bool.eq_false_of_not_eq_true hnot), rfl⟩

theorem inheritFunction_cases (env : Env) (i : ClassId) (template : BoundClass)
    (bindings : List BoundType) (s : State) (f : Function) :
    ((takesOver s (s.store.get i) f = false ∨
        ∃ e, instantiateFunction bindings env.config.maxTemplateDepth f = .error e) ∧
      (inheritFunction env i template bindings s f).store = s.store) ∨
    ∃ g mods, takesOver s (s.store.get i) f = true ∧
      instantiateFunction bindings env.config.maxTemplateDepth f = .ok g ∧
      (inheritFunction env i template bindings s f).store =
        s.store.modify i (·.addFunction (inherited i (s.store.get i) template mods g)) :=
  (inheritFunction_taken env i template bindings s f).imp_right
    fun ⟨g, htakes, hg, hstore, _⟩ => ⟨g, _, htakes, hg, hstore⟩

theorem forall₂_modify {α β : Type} {r : α → β → Prop} {l : List α} {l' : List β} {i : Nat}
    {b : β} {f : β → β} (h : List.Forall₂ r l l') (hb : l'[i]? = some b)
    (hf : ∀ a, r a b → r a (f b)) : List.Forall₂ r l (l'.modify i f) := by
  induction h generalizing i with
  | nil => cases hb
  | @cons a b' l l' hab htail ih =>
    cases i with
    | zero =>
      obtain rfl := Option.some.inj hb
      exact .cons (hf a hab) htail
    | succ i => exact .cons hab (ih hb)

/-- What arguments have in common with others is kept if making arrays keeps it. -/
theorem forall₂_markArrays {r : BoundType → BoundType → Prop}
    (hr : ∀ {t u v}, r t u → u.asArray = .ok v → r t v) {l args : List Argument}
    (h : List.Forall₂ (fun a b : Argument => r a.type b.type) l args)
    (className templateName : String) (mods : List FunctionMod) :
    List.Forall₂ (fun a b : Argument => r a.type b.type) l
      (markArrays className templateName mods args).1 := by
  unfold markArrays
  refine List.foldlRecOn (motive := fun m : List Argument × List Warning =>
    List.Forall₂ (fun a b : Argument => r a.type b.type) l m.1) _ _ h fun marked hmarked m _ => ?_
  dsimp only
  split
  · exact hmarked
  · split
    · exact hmarked
    · next b hb =>
      split
      · next type htype => exact forall₂_modify hmarked hb fun a hab => hr hab htype
      · exact hmarked

theorem types_adaptFunction (i : ClassId) (c : BoundClass) (f : Function) :
    (adaptFunction i c f).returnType? = f.returnType? ∧ (adaptFunction i c f).args = f.args := by
  unfold adaptFunction
  dsimp only
  split <;> exact ⟨rfl, rfl⟩

/-- Every type of a function that was taken over is what the type in its place becomes. -/
theorem becomes_inherited {bindings : List BoundType} {maxDepth : Nat} {f g : Function}
    (hg : instantiateFunction bindings maxDepth f = .ok g) (i : ClassId) (c template : BoundClass)
    (mods : List FunctionMod) :
    List.Forall₂ (BoundType.Becomes bindings maxDepth) f.types
      (inherited i c template mods g).types := by
  obtain ⟨hreturn, hadapted⟩ := types_adaptFunction i c g
  unfold instantiateFunction at hg
  obtain ⟨returnType?, hreturned, hg⟩ := Error.bind_eq_ok hg
  obtain ⟨args, hargs, hg⟩ := Error.bind_eq_ok hg
  cases hg
  unfold inherited Function.types
  refine List.rel_append ?_ ?_
  · show List.Forall₂ _ _ (adaptFunction i c _).returnType?.toList
    rw [hreturn]
    show List.Forall₂ _ f.returnType?.toList returnType?.toList
    cases hnone : f.returnType? with
    | none =>
      rw [hnone] at hreturned
      cases hreturned
      exact .nil
    | some t =>
      rw [hnone] at hreturned
      obtain ⟨u, hu, hreturned⟩ := Error.bind_eq_ok hreturned
      cases hreturned
      exact .cons (.substituted hu) .nil
  · rw [List.forall₂_map_left_iff, List.forall₂_map_right_iff]
    refine forall₂_markArrays (fun h hv => .array h hv) ?_ _ _ _
    rw [hadapted]
    refine (Error.forall₂_of_mapM hargs).imp fun a b hab => ?_
    obtain ⟨type, htype, hb⟩ := Error.bind_eq_ok hab
    cases hb
    exact .substituted htype

/-! ### Taking over members -/

/-- The types become the others with bindings of some arguments. -/
def BecomeTypes (maxDepth : Nat) (types instances : List BoundType) : Prop :=
  ∃ bindings : List BoundType, (∀ b ∈ bindings, b.ConcreteElements) ∧
    List.Forall₂ (BoundType.Becomes bindings maxDepth) types instances

/-- A class may have got instances of members of a template, behind those that it had. -/
structure GetsMembers (maxDepth : Nat) (template c d : BoundClass) : Prop where
  templateBase? : d.templateBase? = c.templateBase?
  functions : ∃ l, d.functions = c.functions ++ l ∧
    ∀ g ∈ l, ∃ f ∈ template.functions, BecomeTypes maxDepth f.types g.types
  fields : ∃ l, d.fields = c.fields ++ l ∧
    ∀ g ∈ l, ∃ f ∈ template.fields, BecomeTypes maxDepth [f.type] [g.type]

namespace GetsMembers
variable {maxDepth : Nat} {template c d e : BoundClass}

theorem of_eq (hbase : d.templateBase? = c.templateBase?) (hfunctions : d.functions = c.functions)
    (hfields : d.fields = c.fields) : GetsMembers maxDepth template c d := by
  refine ⟨hbase, ⟨[], ?_, fun g hg => absurd hg List.not_mem_nil⟩,
    ⟨[], ?_, fun g hg => absurd hg List.not_mem_nil⟩⟩
  · rw [hfunctions, List.append_nil]
  · rw [hfields, List.append_nil]

theorem trans (h : GetsMembers maxDepth template c d) (k : GetsMembers maxDepth template d e) :
    GetsMembers maxDepth template c e := by
  obtain ⟨hbase, ⟨fs, hfs, hfunctions⟩, gs, hgs, hfields⟩ := h
  obtain ⟨hbase', ⟨fs', hfs', hfunctions'⟩, gs', hgs', hfields'⟩ := k
  refine ⟨hbase'.trans hbase, ⟨fs ++ fs', ?_, fun g hg => ?_⟩, ⟨gs ++ gs', ?_, fun g hg => ?_⟩⟩
  · rw [hfs', hfs, List.append_assoc]
  · exact (List.mem_append.mp hg).elim (hfunctions g) (hfunctions' g)
  · rw [hgs', hgs, List.append_assoc]
  · exact (List.mem_append.mp hg).elim (hfields g) (hfields' g)

theorem addFunction {f g : Function} (hf : f ∈ template.functions)
    (hg : BecomeTypes maxDepth f.types g.types) :
    GetsMembers maxDepth template c (c.addFunction g) := by
  refine ⟨rfl, ⟨[g], rfl, fun g' hg' => ?_⟩, [], (List.append_nil c.fields).symm,
    fun g' hg' => absurd hg' List.not_mem_nil⟩
  obtain rfl := List.mem_singleton.mp hg'
  exact ⟨f, hf, hg⟩

theorem addField {f g : Field} (hf : f ∈ template.fields)
    (hg : BecomeTypes maxDepth [f.type] [g.type]) :
    GetsMembers maxDepth template c (c.addField g) := by
  refine ⟨rfl, ⟨[], (List.append_nil c.functions).symm,
    fun g' hg' => absurd hg' List.not_mem_nil⟩, [g], rfl, fun g' hg' => ?_⟩
  obtain rfl := List.mem_singleton.mp hg'
  exact ⟨f, hf, hg⟩

end GetsMembers

/-- One class has got instances of members of a template, and no other class has changed. -/
structure Takes (maxDepth : Nat) (i : ClassId) (template : BoundClass) (s t : State) : Prop where
  size : t.store.classes.size = s.store.classes.size
  others : ∀ c, c ≠ i → t.store.get c = s.store.get c
  self : GetsMembers maxDepth template (s.store.get i) (t.store.get i)

namespace Takes
variable {maxDepth : Nat} {i : ClassId} {template : BoundClass} {s t u : State}

theorem of_store (h : t.store = s.store) : Takes maxDepth i template s t := by
  refine ⟨?_, fun c _ => ?_, ?_⟩ <;> rw [h]
  exact .of_eq rfl rfl rfl

theorem trans (h : Takes maxDepth i template s t) (k : Takes maxDepth i template t u) :
    Takes maxDepth i template s u :=
  ⟨k.size.trans h.size, fun c hc => (k.others c hc).trans (h.others c hc), h.self.trans k.self⟩

theorem foldl {α : Type} {f : State → α → State} {l : List α}
    (hf : ∀ s, ∀ a ∈ l, Takes maxDepth i template s (f s a)) (s : State) :
    Takes maxDepth i template s (l.foldl f s) :=
  List.foldlRecOn l f (of_store rfl) fun t ht a ha => ht.trans (hf t a ha)

theorem modify {f : BoundClass → BoundClass} (ht : t.store = s.store.modify i f)
    (hf : ∀ c, GetsMembers maxDepth template c (f c)) : Takes maxDepth i template s t := by
  refine ⟨?_, fun c hc => ?_, ?_⟩ <;> rw [ht]
  · exact ClassStore.size_modify s.store i f
  · rw [ClassStore.get_modify, if_neg fun h => hc h.1.symm]
  · rw [ClassStore.get_modify]
    split
    · exact hf _
    · exact .of_eq rfl rfl rfl

end Takes

section
variable (env : Env) (i t : ClassId) (written : TypeExpr) (s : State)

theorem inheritFunction_takes {template : BoundClass} {bindings : List BoundType}
    (hbindings : ∀ b ∈ bindings, b.ConcreteElements) {f : Function}
    (hf : f ∈ template.functions) :
    Takes env.config.maxTemplateDepth i template s (inheritFunction env i template bindings s f) := by
  rcases inheritFunction_cases env i template bindings s f with ⟨-, hstore⟩ | ⟨g, mods, -, hg, hstore⟩
  · exact .of_store hstore
  · refine .modify hstore fun c => .addFunction hf ⟨bindings, hbindings, ?_⟩
    exact becomes_inherited hg i (s.store.get i) template mods

theorem inheritField_takes {template : BoundClass} {bindings : List BoundType}
    (hbindings : ∀ b ∈ bindings, b.ConcreteElements) {f : Field} (hf : f ∈ template.fields) :
    Takes env.config.maxTemplateDepth i template s (inheritField env i template bindings s f) := by
  unfold inheritField
  dsimp only
  split
  · exact .of_store rfl
  · split
    · refine .of_store ?_
      unfold warnUninstantiable
      split <;> rfl
    · next type htype =>
      refine .modify rfl fun c => .addField hf ⟨bindings, hbindings, ?_⟩
      exact .cons (.substituted htype) .nil

theorem takeFields_takes :
    Takes env.config.maxTemplateDepth i (s.store.get t) s (takeFields env i t written s) := by
  have hbindings : ∀ b ∈ (bindInstance i t written s).1, b.ConcreteElements := fun b hb =>
    concreteElements_of_mem_bindArguments hb
  have hbind : Takes env.config.maxTemplateDepth i (s.store.get t) s
      (bindInstance i t written s).2 := by
    refine .modify (store_bindArguments i t written written.args _) fun c => ?_
    split <;> exact .of_eq rfl rfl rfl
  have hfunctions : Takes env.config.maxTemplateDepth i (s.store.get t)
      (bindInstance i t written s).2 (takeFunctions env i t written s) :=
    .foldl (fun u f hf => inheritFunction_takes env i u hbindings hf) _
  have hfields : Takes env.config.maxTemplateDepth i (s.store.get t)
      (takeFunctions env i t written s) (takeFields env i t written s) :=
    .foldl (fun u f hf => inheritField_takes env i u hbindings hf) _
  exact (hbind.trans hfunctions).trans hfields

/-- To make a class an instance leaves the other classes alone. -/
theorem get_inheritTemplate_of_ne {c : ClassId} (hc : c ≠ i) :
    (inheritTemplate env i t written s).store.get c = s.store.get c := by
  rw [inheritTemplate_eq]
  show ((takeFields env i t written s).store.modify i _).get c = _
  rw [ClassStore.get_modify, if_neg fun hic => hc hic.1.symm]
  exact (takeFields_takes env i t written s).others c hc

variable {i : ClassId} {s : State} (hlt : i < s.store.classes.size)
include hlt

theorem templateBase?_inheritTemplate (hnone : (s.store.get i).templateBase? = none) :
    ((inheritTemplate env i t written s).store.get i).templateBase? = some t := by
  obtain ⟨hbase, -⟩ := (takeFields_takes env i t written s).self
  rw [get_inheritTemplate hlt, templateBase?_takeLinks, hbase, hnone, Option.none_or]

/-- An instance gets members behind those that it has. -/
theorem prefix_inheritTemplate (c : ClassId) :
    (s.store.get c).functions <+: ((inheritTemplate env i t written s).store.get c).functions ∧
      (s.store.get c).fields <+: ((inheritTemplate env i t written s).store.get c).fields := by
  by_cases hc : c = i
  · subst hc
    obtain ⟨-, ⟨fs, hfs, -⟩, gs, hgs, -⟩ := (takeFields_takes env c t written s).self
    have hcore := core_takeLinks (takeFields env c t written s).store t
      ((bindInstance c t written s).1.map (·.entry))
      ((takeFields env c t written s).store.get c)
    rw [get_inheritTemplate hlt, BoundClass.functions_eq_of_core hcore,
      BoundClass.fields_eq_of_core hcore, hfs, hgs]
    exact ⟨List.prefix_append _ _, List.prefix_append _ _⟩
  · rw [get_inheritTemplate_of_ne env i t written s hc]
    exact ⟨List.prefix_rfl, List.prefix_rfl⟩

end

/-! ### Members taken over -/

/-- Behind members of its own a class has instances of members of its template. -/
structure HasTaken (maxDepth : Nat) (s : ClassStore) (own : BoundClass) (c : ClassId) : Prop where
  functions : ∃ l, (s.get c).functions = own.functions ++ l ∧ ∀ g ∈ l,
    ∃ t, (s.get c).templateBase? = some t ∧
      ∃ f ∈ (s.get t).functions, BecomeTypes maxDepth f.types g.types
  fields : ∃ l, (s.get c).fields = own.fields ++ l ∧ ∀ g ∈ l,
    ∃ t, (s.get c).templateBase? = some t ∧
      ∃ f ∈ (s.get t).fields, BecomeTypes maxDepth [f.type] [g.type]

theorem HasTaken.mono {maxDepth : Nat} {s t : ClassStore} {own : BoundClass} {c : ClassId}
    (h : HasTaken maxDepth s own c) (hcore : (t.get c).core = (s.get c).core)
    (hbase : (t.get c).templateBase? = (s.get c).templateBase?)
    (hkept : ∀ x, (s.get x).functions ⊆ (t.get x).functions ∧ (s.get x).fields ⊆ (t.get x).fields) :
    HasTaken maxDepth t own c := by
  obtain ⟨⟨fs, hfs, hf⟩, gs, hgs, hg⟩ := h
  refine ⟨⟨fs, (BoundClass.functions_eq_of_core hcore).trans hfs, fun g' hg' => ?_⟩, gs,
    (BoundClass.fields_eq_of_core hcore).trans hgs, fun g' hg' => ?_⟩
  · obtain ⟨x, hx, f, hmem, hbecome⟩ := hf g' hg'
    exact ⟨x, hbase.trans hx, f, (hkept x).1 hmem, hbecome⟩
  · obtain ⟨x, hx, f, hmem, hbecome⟩ := hg g' hg'
    exact ⟨x, hbase.trans hx, f, (hkept x).2 hmem, hbecome⟩

/-- Since `u` members were only taken over from templates. -/
def Inherits (env : Env) (u s : State) : Prop :=
  ∀ c, HasTaken env.config.maxTemplateDepth s.store (u.store.get c) c

namespace Inherits
variable {env : Env} {u s t : State}

theorem refl (u : State) : Inherits env u u := fun _ =>
  ⟨⟨[], (List.append_nil _).symm, fun _ hg => absurd hg List.not_mem_nil⟩,
    ⟨[], (List.append_nil _).symm, fun _ hg => absurd hg List.not_mem_nil⟩⟩

/-- Links other than those to templates do not count. -/
theorem frame (h : Inherits env u s) (hcore : ∀ c, (t.store.get c).core = (s.store.get c).core)
    (hbase : ∀ c, (t.store.get c).templateBase? = (s.store.get c).templateBase?) :
    Inherits env u t := by
  refine fun c => (h c).mono (hcore c) (hbase c) fun x => ?_
  rw [BoundClass.functions_eq_of_core (hcore x), BoundClass.fields_eq_of_core (hcore x)]
  exact ⟨List.Subset.refl _, List.Subset.refl _⟩

theorem of_store (h : Inherits env u s) (hstore : t.store = s.store) : Inherits env u t :=
  h.frame (fun c => by rw [hstore]) fun c => by rw [hstore]

theorem addBase (h : Inherits env u s) (i : ClassId) (primary : Bool) (b : ClassId) :
    Inherits env u (addBase i primary b s) := by
  apply h.frame
  · exact fun c => (core_addBase i primary b s c).1
  · exact fun c => (core_addBase i primary b s c).2

/-- A class without template has its own members only. -/
theorem own (h : Inherits env u s) {i : ClassId} (hnone : (s.store.get i).templateBase? = none) :
    (s.store.get i).functions = (u.store.get i).functions ∧
      (s.store.get i).fields = (u.store.get i).fields := by
  obtain ⟨⟨fs, hfs, hf⟩, gs, hgs, hg⟩ := h i
  rw [hnone] at hf hg
  constructor
  · cases fs with
    | nil => rw [hfs, List.append_nil]
    | cons f fs =>
      obtain ⟨t, ht, -⟩ := hf f List.mem_cons_self
      cases ht
  · cases gs with
    | nil => rw [hgs, List.append_nil]
    | cons g gs =>
      obtain ⟨t, ht, -⟩ := hg g List.mem_cons_self
      cases ht

theorem inheritTemplate {i : ClassId} (h : Inherits env u s) (hlt : i < s.store.classes.size)
    (hnone : (s.store.get i).templateBase? = none) (t : ClassId) (written : TypeExpr) :
    Inherits env u (inheritTemplate env i t written s) := by
  obtain ⟨-, ⟨fs, hfs, hf⟩, gs, hgs, hg⟩ := (takeFields_takes env i t written s).self
  have hcore := core_takeLinks (takeFields env i t written s).store t
    ((bindInstance i t written s).1.map (·.entry))
    ((takeFields env i t written s).store.get i)
  rw [← get_inheritTemplate hlt] at hcore
  have hfunctions := (BoundClass.functions_eq_of_core hcore).trans hfs
  have hfields := (BoundClass.fields_eq_of_core hcore).trans hgs
  have hlink := templateBase?_inheritTemplate env t written hlt hnone
  have hkept : ∀ x, (s.store.get x).functions ⊆
      ((Assembly.inheritTemplate env i t written s).store.get x).functions ∧
      (s.store.get x).fields ⊆
        ((Assembly.inheritTemplate env i t written s).store.get x).fields := by
    intro x
    obtain ⟨hmore, hmore'⟩ := prefix_inheritTemplate env t written hlt x
    exact ⟨hmore.subset, hmore'.subset⟩
  intro c
  by_cases hc : c = i
  · subst hc
    obtain ⟨hown, hown'⟩ := h.own hnone
    refine ⟨⟨fs, hfunctions.trans (by rw [hown]), fun g hg => ?_⟩, gs,
      hfields.trans (by rw [hown']), fun g' hg' => ?_⟩
    · obtain ⟨f, hf, hbecome⟩ := hf g hg
      exact ⟨t, hlink, f, (hkept t).1 hf, hbecome⟩
    · obtain ⟨f, hf, hbecome⟩ := hg g' hg'
      exact ⟨t, hlink, f, (hkept t).2 hf, hbecome⟩
  · have hother := get_inheritTemplate_of_ne env i t written s hc
    exact (h c).mono (by rw [hother]) (by rw [hother]) hkept

end Inherits

theorem settleAll_inherits {env : Env} {s : State} (h : Sound env [] s) :
    Inherits env s (settleAll env s) := by
  have hkept : Kept env (Inherits env s) :=
    ⟨fun h _ hstore _ => h.of_store hstore, fun i primary b h => h.addBase i primary b,
      fun t written hlt hnone _ h => h.inheritTemplate hlt hnone t written⟩
  exact settleAll_keeps hkept h (.refl s)

/-- Types that were taken over have no placeholder outside the elements of arrays, and none at all
if no element of an array had one. -/
structure TypesTaken (maxDepth : Nat) (types taken : List BoundType) : Prop where
  become : BecomeTypes maxDepth types taken
  filled : ∀ t ∈ taken, t.Filled
  concrete : (∀ t ∈ types, t.ConcreteElements) → ∀ t ∈ taken, t.Concrete

theorem BecomeTypes.taken {maxDepth : Nat} {types instances : List BoundType}
    (h : BecomeTypes maxDepth types instances) : TypesTaken maxDepth types instances := by
  obtain ⟨bindings, hbindings, hbecome⟩ := h
  refine ⟨⟨bindings, hbindings, hbecome⟩, fun u hu => ?_, fun hconcrete u hu => ?_⟩
  · obtain ⟨t, -, htu⟩ := Error.exists_of_mem_forall₂ hbecome hu
    exact (htu.fills hbindings).filled
  · obtain ⟨t, ht, htu⟩ := Error.exists_of_mem_forall₂ hbecome hu
    exact (htu.fills hbindings).concrete (hconcrete t ht)

theorem exists_mem_of_length_le {α : Type} {own l : List α} {k : Nat} (hk : own.length ≤ k)
    (hlt : k < (own ++ l).length) : ∃ g ∈ l, (own ++ l)[k]? = some g := by
  have hrest : k - own.length < l.length := by
    rw [List.length_append] at hlt
    omega
  refine ⟨l[k - own.length], List.getElem_mem hrest, ?_⟩
  rw [List.getElem?_append_right hk, List.getElem?_eq_getElem hrest]

/-- Between the members that a class of a finished model was filled with and those that it got after
its bases were resolved stand those that it took over, and they are instances of members of its
template. -/
theorem members_taken {config : Config} {header : Header} {db : Database} {m : Model}
    (hm : (assemble config header db).result = .ok m) :
    ∃ t u, declareAll (.make config header) { db } = .ok () t ∧
      fillAll (.make config header) t = .ok () u ∧
      ∀ c,
        let own := u.store.get c
        let resolved := (settleAll (.make config header) u).store.get c
        (∀ k, own.functions.length ≤ k → k < resolved.functions.length →
          ∃ g x, (m.store.get c).functions[k]? = some g ∧
            (m.store.get c).templateBase? = some x ∧ ∃ f ∈ (m.store.get x).functions,
              TypesTaken config.maxTemplateDepth f.types g.types) ∧
        ∀ k, own.fields.length ≤ k → k < resolved.fields.length →
          ∃ g x, (m.store.get c).fields[k]? = some g ∧
            (m.store.get c).templateBase? = some x ∧ ∃ f ∈ (m.store.get x).fields,
              TypesTaken config.maxTemplateDepth [f.type] [g.type] := by
  obtain ⟨classes, s, hrun, rfl⟩ := assemble_eq_ok.mp hm
  obtain ⟨t, u, hdeclare, hfill, hquiet, harranged, hevolves⟩ := run_arranged hrun
  have hdeclared := declareAll_adds (.make config header) { db } () t hdeclare
  have hpending := (hdeclared.pending (Pending.initial db)).quiet hquiet
  have htaken : Inherits (.make config header) u (settleAll (.make config header) u) :=
    settleAll_inherits (Sound.initial hpending)
  have hkept := hevolves.membersKept
  have hlink : ∀ c, (s.store.get c).templateBase? =
      ((settleAll (.make config header) u).store.get c).templateBase? := harranged.templateBase?
  refine ⟨t, u, hdeclare, hfill, fun c => ⟨fun k hk hlt => ?_, fun k hk hlt => ?_⟩⟩
  · obtain ⟨l, hl, hinstances⟩ := (htaken c).functions
    rw [hl] at hlt
    obtain ⟨g, hg, hindex⟩ := exists_mem_of_length_le hk hlt
    obtain ⟨x, hx, f, hf, hbecome⟩ := hinstances g hg
    obtain ⟨g', hg', hsame⟩ := (hkept c).function (hl ▸ hindex)
    obtain ⟨j, hj⟩ := List.getElem?_of_mem hf
    obtain ⟨f', hf', hsame'⟩ := (hkept x).function hj
    refine ⟨g', x, hg', (hlink c).trans hx, f', List.mem_of_getElem? hf', ?_⟩
    rw [hsame, hsame']
    exact hbecome.taken
  · obtain ⟨l, hl, hinstances⟩ := (htaken c).fields
    rw [hl] at hlt
    obtain ⟨g, hg, hindex⟩ := exists_mem_of_length_le hk hlt
    obtain ⟨x, hx, f, hf, hbecome⟩ := hinstances g hg
    refine ⟨g, x, (hkept c).field (hl ▸ hindex), (hlink c).trans hx, f, ?_, hbecome.taken⟩
    exact (hkept x).fields.subset hf

def holderRules : Database :=
  let (_, db) := Database.initial.add "int" .primitive
  let (_, db) := db.add "Holder" (.complex .container {})
  (db.add "Box" (.complex .object {})).2

/-- A template with a field, and a class without members that is an instance of it. -/
def holderHeader (type : TypeExpr) : Header where
  global.classes := [
    { decls := { name := "Holder<T>", vars := [⟨"item", type, .pub, false, false⟩] }
      templateParams := ["T"] },
    { decls := { name := "Box" }, bases := [{ name := "Holder<int>" }] }]

theorem members_taken_item :
    let header := holderHeader (.ofName "T")
    ∃ m g, (assemble {} header holderRules).result = .ok m ∧
      (m.store.get 1).fields[0]? = some g ∧ g.type.Filled := by
  intro header
  have hlengths : ((fillAll (.make {} header)).after
      ((declareAll (.make {} header)).after { db := holderRules }) |> fun u =>
        decide ((u.store.get 1).fields.length ≤ 0 ∧
          0 < ((settleAll (.make {} header) u).store.get 1).fields.length)) = true := by
    decide +kernel
  obtain ⟨m, hm, -⟩ := exists_model_of_any (p := fun _ => true)
    (show (assemble {} header holderRules).result.toOption.any _ = true by decide +kernel)
  obtain ⟨t, u, hdeclare, hfill, hmembers⟩ := members_taken hm
  rw [Build.after_of_ok hdeclare, Build.after_of_ok hfill] at hlengths
  obtain ⟨hown, htaken⟩ := of_decide_eq_true hlengths
  obtain ⟨g, x, hg, -, f, -, htypes⟩ := (hmembers 1).2 0 hown htaken
  exact ⟨m, g, hm, hg, htypes.filled g.type List.mem_cons_self⟩

/-- The elements of an array are taken over as they are, with the placeholder. -/
theorem element_not_replaced :
    ∃ m, (assemble {} (holderHeader { name := ["T"], dims := ["4"] }) holderRules).result = .ok m ∧
      (m.store.get 1).templateBase? = some 0 ∧
      (m.store.get 1).templateArgs?.map (·.map (·.name)) = some ["int"] ∧
      ∃ g, (m.store.get 1).fields[0]? = some g ∧ ¬ g.type.Concrete := by
  obtain ⟨m, hm, hfacts⟩ := exists_model_of_any (p := fun m =>
    decide ((m.store.get 1).templateBase? = some 0) &&
    decide ((m.store.get 1).templateArgs?.map (·.map (·.name)) = some ["int"]) &&
    (m.store.get 1).fields[0]?.any (·.type.element?.any (·.entry.ordinal?.isSome)))
    (show (assemble {} (holderHeader { name := ["T"], dims := ["4"] })
      holderRules).result.toOption.any _ = true by decide +kernel)
  simp only [Bool.and_eq_true, decide_eq_true_eq, Option.any_eq_true] at hfacts
  obtain ⟨⟨hbase, hargs⟩, g, hg, e, helement, hplaceholder⟩ := hfacts
  refine ⟨m, hm, hbase, hargs, g, hg, fun hconcrete => ?_⟩
  obtain ⟨-, -, helements⟩ := hconcrete
  obtain ⟨hentry, -, -⟩ := helements e helement
  rw [hentry] at hplaceholder
  cases hplaceholder

end Assembly
end BindingModel
