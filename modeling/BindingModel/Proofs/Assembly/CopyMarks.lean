import BindingModel.Proofs.Assembly.Copies
import BindingModel.Proofs.Assembly.Ownership
import BindingModel.Proofs.Rule.CopiedMods

/-! How often the arguments of functions that were taken over are marked as arrays. Types keep the
marks that they have in the template, and the modifications that made them are copied and mark again. -/
namespace BindingModel
open Api

namespace Assembly

/-! ### Counting -/

/-- One edit of `markArrays`. -/
def markArray (className templateName : String) (r : List Argument × List Warning)
    (m : ArgumentMod) : List Argument × List Warning :=
  match m.index with
  | 0 => r
  | i + 1 =>
    match r.1[i]? with
    | none => r
    | some a =>
      match a.type.asArray with
      | .ok type => (r.1.modify i fun a => { a with type }, r.2)
      | .error e => (r.1, r.2 ++ [.specialization className templateName e])

theorem markArrays_eq (className templateName : String) (mods : List FunctionMod)
    (args : List Argument) : markArrays className templateName mods args =
      ((argumentMods mods).filter (·.isArray)).foldl (markArray className templateName)
        (args, []) := by
  rfl

theorem type_markArray (className templateName : String) {r : List Argument × List Warning}
    {m : ArgumentMod} (harray : m.isArray = true) {k : Nat} {a : Argument} (ha : r.1[k]? = some a) :
    ∃ b, (markArray className templateName r m).1[k]? = some b ∧
      b.type = if marksArray m k then a.type.marked else a.type := by
  unfold markArray
  by_cases hindex : m.index = k + 1
  · rw [if_pos (marksArray_iff.mpr ⟨harray, hindex⟩), hindex]
    dsimp only
    rw [ha]
    dsimp only
    split
    · next type htype =>
      refine ⟨{ a with type }, ?_, (BoundType.asArray_eq_ok_iff.mp htype).2⟩
      rw [List.getElem?_modify, ha]
      simp
    · next e he => exact ⟨a, ha, (BoundType.marked_of_asArray_error he).symm⟩
  · rw [if_neg fun h => hindex (marksArray_iff.mp h).2]
    refine ⟨a, ?_, rfl⟩
    split
    · exact ha
    · next i hi =>
      split
      · exact ha
      · split
        · rw [List.getElem?_modify, ha]
          have hik : i ≠ k := fun h => hindex (h ▸ hi)
          simp [hik]
        · exact ha

/-- Every modification that makes an array of an argument counts. -/
theorem type_markArrays (className templateName : String) (mods : List FunctionMod)
    {args : List Argument} {k : Nat} {a : Argument} (ha : args[k]? = some a) :
    ∃ b, (markArrays className templateName mods args).1[k]? = some b ∧
      b.type = BoundType.marked^[marksAt mods k] a.type := by
  have hcount : marksAt mods k =
      ((argumentMods mods).filter (·.isArray)).countP (marksArray · k) := by
    rw [marksAt, List.countP_filter]
    refine List.countP_congr fun m _ => ?_
    simp only [Bool.and_eq_true, marksArray_iff]
    exact ⟨fun h => ⟨h, h.1⟩, fun h => h.1⟩
  rw [hcount, markArrays_eq]
  refine type_foldl_marks Prod.fst (fun r m hm c hc => ?_) (args, []) ha
  exact type_markArray className templateName (List.mem_filter.mp hm).2 hc

/-! ### Copies -/

/-- The only base of the class names the template, as it is found from one of the scopes around the
class. -/
def NamesTemplate (c template : BoundClass) : Prop :=
  ∃ name, templateName? c = some name ∧ ∃ n ∈ State.templateNames c.qualifiedName name,
    ∃ written, TypeExpr.parse n = .ok written ∧ template.qualifiedName = written.qualifiedName

theorem Instantiates.namesTemplate {s : ClassStore} {c x : ClassId} {written : TypeExpr}
    (h : Instantiates s c x written) : NamesTemplate (s.get c) (s.get x) := by
  obtain ⟨⟨name, hname, n, hn, hparse⟩, htemplate⟩ := h
  exact ⟨name, hname, n, hn, written, hparse, htemplate⟩

/-- The modifications for a copy of a function: those of its class, and behind them those of the
function in the template if the rules have the class. They are read when the class takes the function
over, under the rules `now`, to which copies were added until then and others are added later. -/
structure CopyMods (db used : Database) (c template : Entry) (signature copySignature : String)
    (mods : List FunctionMod) : Prop where
  copied : ∃ now : Database, db.KeepsMods now ∧ now.KeepsMods used ∧
    (c.isComplex = true ∧ now.Knows c ∧ mods = now.modsFor c copySignature ++
        (now.modsFor template signature).map (·.forSignature copySignature) ∨
      ¬(c.isComplex = true ∧ now.Knows c) ∧ mods = now.modsFor c copySignature)
  kept : mods <+: used.modsFor c copySignature

/-- The instance of a function. The instance of each argument, with what marks it has from the
template, is marked as an array as often as the modifications for the copy say. -/
structure TakenOver (db used : Database) (bindings : List BoundType) (maxDepth : Nat)
    (c template : BoundClass) (f g : Function) : Prop
    extends CopyOf bindings maxDepth c.name f g where
  marks : ∃ args mods, List.Forall₂ (fun a x : Argument =>
      BoundType.instantiate bindings maxDepth a.type = .ok x.type) f.args args ∧
    CopyMods db used c.entry template.entry f.signature { g with args }.signature mods ∧
    ∀ k b, g.args[k]? = some b → ∃ x, args[k]? = some x ∧
      b.type = BoundType.marked^[marksAt mods k] x.type

section
variable {h : Header} {db used : Database} {s : State} {i t : ClassId} {f g : Function}

theorem copyMods_takenMods (he : Evolves h { db } s) (hlt : i < s.store.classes.size)
    (hf : f ∈ (s.store.get t).functions) (hused : (takenRules i s f g).KeepsMods used) :
    CopyMods db used (s.store.get i).entry (s.store.get t).entry f.signature
      (adaptFunction i (s.store.get i) g).signature (takenMods i s f g) := by
  have hmade := (WellMade.initial db).evolves he
  have htheirs : s.store.modsOf s.db f = s.db.modsFor (s.store.get t).entry f.signature :=
    modsOf_of_isLive (hmade.isLive hf) (hmade.owned t f hf).implementing s.db
  have howner : (adaptFunction i (s.store.get i) g).implementing? = some i := by
    unfold adaptFunction
    dsimp only
    split <;> rfl
  have hmods : takenMods i s f g = (takenRules i s f g).modsFor (s.store.get i).entry
      (adaptFunction i (s.store.get i) g).signature :=
    modsOf_of_implementing hmade.released hlt howner _
  refine ⟨⟨s.db, .of_grows he.db, ?_, ?_⟩, hmods ▸ hused.modsFor _ _⟩
  · exact (Database.KeepsMods.addMods s.db _ _).trans hused
  · rw [hmods]
    unfold takenRules
    dsimp only
    by_cases hknown : (s.store.get i).entry.isComplex = true ∧ s.db.Knows (s.store.get i).entry
    · refine .inl ⟨hknown.1, hknown.2, ?_⟩
      rw [Database.modsFor_copies s.db hknown.1 hknown.2, htheirs]
    · refine .inr ⟨hknown, ?_⟩
      rw [Database.addMods_of_unknown hknown]

theorem takenOver_inherited (he : Evolves h { db } s) (hlt : i < s.store.classes.size)
    (hf : f ∈ (s.store.get t).functions) {bindings : List BoundType} {maxDepth : Nat}
    (hg : instantiateFunction bindings maxDepth f = .ok g) (template : BoundClass)
    (hused : (takenRules i s f g).KeepsMods used) :
    TakenOver db used bindings maxDepth (s.store.get i) (s.store.get t) f
      (inherited i (s.store.get i) template (takenMods i s f g) g) := by
  refine ⟨copyOf_inherited hg i (s.store.get i) template _,
    (adaptFunction i (s.store.get i) g).args, takenMods i s f g, ?_,
    copyMods_takenMods he hlt hf hused, fun k b hb => ?_⟩
  · rw [(types_adaptFunction i (s.store.get i) g).2]
    unfold instantiateFunction at hg
    obtain ⟨returnType?, -, hg⟩ := Error.bind_eq_ok hg
    obtain ⟨args, hinstances, hg⟩ := Error.bind_eq_ok hg
    cases hg
    refine (Error.forall₂_of_mapM hinstances).imp fun a x hinstance => ?_
    obtain ⟨u, hu, hinstance⟩ := Error.bind_eq_ok hinstance
    cases hinstance
    exact hu
  · obtain ⟨x, hx, -⟩ := exists_of_map_eq (map_label_markArrays _ _ _ _).symm hb
    obtain ⟨b', hb', hmarked⟩ :=
      type_markArrays (s.store.get i).name template.name (takenMods i s f g) hx
    obtain rfl := Option.some.inj (hb.symm.trans hb')
    exact ⟨x, hx, hmarked⟩

end

namespace TakenOver
variable {db used used' : Database} {bindings : List BoundType} {maxDepth : Nat}
  {c c' template template' : BoundClass} {f g : Function}

theorem of_head (h : TakenOver db used bindings maxDepth c template f g) (hc : c'.head = c.head)
    (htemplate : template'.head = template.head) :
    TakenOver db used bindings maxDepth c' template' f g := by
  have hentry := BoundClass.entry_eq_of_head hc
  have hname : c'.name = c.name := congrArg Entry.localName hentry
  refine ⟨hname ▸ h.toCopyOf, ?_⟩
  rw [hentry, BoundClass.entry_eq_of_head htemplate]
  exact h.marks

/-- What is copied later changes nothing. -/
theorem mono (h : TakenOver db used bindings maxDepth c template f g)
    (hused : used.KeepsMods used') : TakenOver db used' bindings maxDepth c template f g := by
  obtain ⟨args, mods, hargs, ⟨⟨now, hnow, hlater, hmods⟩, hkept⟩, hmarks⟩ := h.marks
  exact ⟨h.toCopyOf, args, mods, hargs, ⟨⟨now, hnow, hlater.trans hused, hmods⟩,
    hkept.trans (hused.modsFor _ _)⟩, hmarks⟩

end TakenOver

theorem bindInstance_evolves {h : Header} (i t : ClassId) (written : TypeExpr) (s : State) :
    Evolves h s (bindInstance i t written s).2 := by
  refine ((Evolves.refl s).modifyClass i fun c => ?_).trans
    (bindArguments_evolves i t written written.args _)
  split <;> rfl

/-- A class gets the copy of a function of another one, or its functions stay. -/
theorem inheritFunction_copies {env : Env} {db : Database} {s : State} {i t : ClassId}
    {f : Function} (he : Evolves env.header { db } s) (hlt : i < s.store.classes.size)
    (hf : f ∈ (s.store.get t).functions) (template : BoundClass) (bindings : List BoundType) :
    let u := inheritFunction env i template bindings s f
    (u.store.get i).functions = (s.store.get i).functions ∨
      ∃ g, (u.store.get i).functions = (s.store.get i).functions ++ [g] ∧
        TakenOver db u.db bindings env.config.maxTemplateDepth (s.store.get i)
          (s.store.get t) f g := by
  intro u
  rcases inheritFunction_taken env i template bindings s f with ⟨-, hstore⟩ | ⟨g, -, hg, hstore, hdb⟩
  · exact .inl (by rw [hstore])
  · rw [hstore, hdb, ClassStore.get_modify, if_pos ⟨rfl, hlt⟩]
    exact .inr ⟨_, rfl, takenOver_inherited he hlt hf hg template (.refl _)⟩

/-- Behind its own functions a class gets copies of functions of the template. -/
theorem inheritTemplate_takes {env : Env} {db : Database} {s : State} {i : ClassId}
    (he : Evolves env.header { db } s) (hlt : i < s.store.classes.size) (t : ClassId)
    (written : TypeExpr) :
    ∃ fs gs, fs.Sublist (s.store.get t).functions ∧
      ((inheritTemplate env i t written s).store.get i).functions =
        (s.store.get i).functions ++ gs ∧
      List.Forall₂ (TakenOver db (inheritTemplate env i t written s).db
        (bindInstance i t written s).1 env.config.maxTemplateDepth
        (s.store.get i) (s.store.get t)) fs gs := by
  let bindings := (bindInstance i t written s).1
  let step := inheritFunction env i (s.store.get t) bindings
  let kept (u : State) : Prop := Evolves env.header s u ∧
    ∀ f ∈ (s.store.get t).functions, f ∈ (u.store.get t).functions
  let copied (u : State) := TakenOver db u.db bindings env.config.maxTemplateDepth
    (s.store.get i) (s.store.get t)
  have hstep : ∀ u, ∀ f ∈ (s.store.get t).functions, kept u →
      Evolves env.header u (step u f) :=
    fun u f hf hu => inheritFunction_evolves env i _ _ u (hu.2 f hf)
  have hkept : ∀ u, ∀ f ∈ (s.store.get t).functions, kept u → kept (step u f) :=
    fun u f hf hu => ⟨hu.1.trans (hstep u f hf hu), fun g hg =>
      mem_functions_inheritFunction env i _ _ f (hu.2 g hg)⟩
  have htakes : ∀ u, ∀ f ∈ (s.store.get t).functions, kept u →
      ((step u f).store.get i).functions = (u.store.get i).functions ∨
      ∃ g, ((step u f).store.get i).functions = (u.store.get i).functions ++ [g] ∧
        copied (step u f) f g := by
    intro u f hf ⟨hevolves, hmem⟩
    have ht := ClassStore.lt_size_of_mem_functions hf
    refine (inheritFunction_copies (he.trans hevolves) (Nat.lt_of_lt_of_le hlt hevolves.size_le)
      (hmem f hf) (s.store.get t) bindings).imp_right fun ⟨g, hg, hcopy⟩ => ⟨g, hg, ?_⟩
    exact hcopy.of_head (hevolves.head i hlt).symm (hevolves.head t ht).symm
  obtain ⟨fs, gs, hsub, hgs, hcopies⟩ := foldl_copies (r := copied) (P := kept)
    (fun u => (u.store.get i).functions) hkept
    (fun u f hf hu _ _ h => h.mono (.of_grows (hstep u f hf hu).db)) htakes
    (s := (bindInstance i t written s).2)
    ⟨bindInstance_evolves i t written s, fun f hf => by rwa [functions_bindInstance]⟩
  -- The fields and the links of the template, which come last, add no modification.
  have hfields := Evolves.foldl (h := env.header) (l := (s.store.get t).fields)
    (fun u f _ => inheritField_evolves env i (s.store.get t) bindings u f)
    ((s.store.get t).functions.foldl step (bindInstance i t written s).2)
  rw [functions_inheritTemplate hlt, ← functions_bindInstance i t written s i]
  exact ⟨fs, gs, hsub, hgs, hcopies.imp fun _ _ h => h.mono (.of_grows hfields.db)⟩

end Assembly
end BindingModel
