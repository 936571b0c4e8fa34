import BindingModel.Proofs.Assembly.Origins
import BindingModel.Proofs.FlagSet

/-! Constructors have the names of their classes, whichever way they came about, unless a modification
of the rules renames them. -/
namespace BindingModel
open Api Header

namespace Api.Function

/-- A constructor has the name of the class, or one that a modification of the class gives it. -/
def NamedAfter (f : Function) (db : Database) (c : BoundClass) : Prop :=
  f.isConstructor = true → f.name = c.name ∨
    ∃ m ∈ db.modsFor c.entry f.signature, m.isRenamed = true ∧ m.newName? = some f.name

theorem isConstructor_congr {f g : Function} (hkind : f.kind = g.kind) :
    f.isConstructor = g.isConstructor := by
  unfold isConstructor
  rw [hkind]

end Api.Function

namespace Assembly

/-! ### Modifications -/

/-- A function keeps its name, or has the new one of a modification that renames it. -/
theorem name_editFunctions (mods : List FunctionMod) (f : Function) :
    (editFunctions mods f).name = f.name ∨ ∃ m ∈ mods, m.isRenamed = true ∧
      m.newName? = some (editFunctions mods f).name := by
  refine List.foldlRecOn (motive := fun g : Function => g.name = f.name ∨ ∃ m ∈ mods,
    m.isRenamed = true ∧ m.newName? = some g.name) mods editFunction (.inl rfl) ?_
  intro g hg m hm
  by_cases hrenamed : m.isRenamed = true
  · obtain ⟨n, hn⟩ := Option.isSome_iff_exists.mp (Bool.and_eq_true_iff.mp hrenamed).2
    refine .inr ⟨m, hm, hrenamed, ?_⟩
    show m.newName? = some (if m.isRenamed then m.newName?.getD g.name else g.name)
    rw [if_pos hrenamed, hn]
    rfl
  · have hname : (editFunction g m).name = g.name := if_neg hrenamed
    rw [hname]
    exact hg

theorem signature_bindProperty (properties : List Property) (f : Function) :
    (bindProperty properties f).signature = f.signature ∧
      (bindProperty properties f).name = f.name ∧
      (bindProperty properties f).implementing? = f.implementing? := by
  unfold bindProperty
  split
  · exact ⟨rfl, rfl, rfl⟩
  · split
    · next r _ =>
      refine ⟨Function.signature_congr rfl rfl ?_, rfl, rfl⟩
      show (f.attrs.insert r.attr).has .const = f.attrs.has .const
      rw [FlagSet.has_insert]
      cases r <;> simp [PropertyRole.attr]
    · exact ⟨rfl, rfl, rfl⟩

theorem signature_fixConversion (db : Database) (f : Function) :
    (fixConversion db f).signature = f.signature ∧ (fixConversion db f).name = f.name := by
  unfold fixConversion
  split
  · split <;> exact ⟨rfl, rfl⟩
  · exact ⟨rfl, rfl⟩

/-- Finishing a member gives it no other name than its modifications do. -/
theorem finishMember_named (s : State) (c : BoundClass) (f : Function) :
    (finishMember s c f).signature = f.signature ∧
      ((finishMember s c f).name = f.name ∨ ∃ m ∈ s.store.modsOf s.db f, m.isRenamed = true ∧
        m.newName? = some (finishMember s c f).name) := by
  obtain ⟨hsignature, hname, himplementing⟩ := signature_bindProperty c.properties f
  have hmods : s.store.modsOf s.db (bindProperty c.properties f) = s.store.modsOf s.db f := by
    unfold ClassStore.modsOf
    rw [himplementing, hsignature]
  unfold finishMember
  dsimp only
  generalize bindProperty c.properties f = g at *
  rw [hmods]
  obtain ⟨hfixed, hfixed'⟩ := signature_fixConversion s.db (editFunctions (s.store.modsOf s.db f) g)
  rw [hfixed, hfixed', ← hname, ← hsignature]
  exact ⟨signature_editFunctions _ g, name_editFunctions _ g⟩

/-! ### Declarations -/

namespace Draft
variable {d : Draft} {c : BoundClass}

theorem assignmentKind_cases (d : Draft) (f : Function) : d.assignmentKind f = f.kind ∨
    d.assignmentKind f = .assignmentOperator ∨ d.assignmentKind f = .moveAssignmentOperator := by
  unfold assignmentKind
  split
  · split
    · split
      · exact .inr (.inl rfl)
      · split
        · exact .inr (.inl rfl)
        · exact .inl rfl
      · exact .inr (.inr rfl)
    · exact .inl rfl
  · exact .inl rfl

/-- A function may turn out to be an assignment, but none turns out to be a constructor. -/
theorem finish_named {f : Function} (h : (d.finish f).1.isConstructor = true) :
    f.isConstructor = true ∧ (d.finish f).1.name = f.name := by
  obtain ⟨g, hkind, hassigned, hname⟩ : ∃ g : Function, g.kind = f.kind ∧
      (d.finish f).1.kind = d.assignmentKind g ∧ (d.finish f).1.name = f.name := by
    unfold finish
    dsimp only
    split <;> exact ⟨(editArguments _ _ _).1, rfl, rfl, rfl⟩
  refine ⟨?_, hname⟩
  unfold Function.isConstructor at h ⊢
  rcases assignmentKind_cases d g with hsame | hoperator | hoperator
  · rwa [hassigned, hsame, hkind] at h
  · rw [hassigned, hoperator] at h
    cases h
  · rw [hassigned, hoperator] at h
    cases h

theorem bind_named {f : FunctionDecl} {g : Function} (h : (d.bind f).1 = .built g)
    (hc : d.classOf? = some c) (hg : g.isConstructor = true) : g.name = c.name := by
  unfold bind at h
  dsimp only at h
  rw [hc] at h
  dsimp only at h
  split at h
  · cases h
  · split at h
    · cases h
    · cases h
      obtain ⟨hconstructor, hname⟩ := finish_named hg
      rw [hname]
      exact if_pos hconstructor

theorem judge_named {skipDeprecated : Bool} {f : FunctionDecl} {g : Function}
    (h : (d.judge skipDeprecated f).1 = .built g) (hc : d.classOf? = some c)
    (hg : g.isConstructor = true) : g.name = c.name := by
  unfold judge at h
  split at h
  · next verdict hscreen =>
    obtain rfl : verdict = .built g := h
    exact absurd hscreen (screen?_ne_built _ _ f _ g)
  · exact bind_named h hc hg

/-! ### Functions of rules -/

theorem reverseOperator_named {f g : Function} {ws : List Warning}
    (h : d.reverseOperator f = (g, ws)) : g.name = f.name ∧ g.kind = f.kind := by
  obtain rfl : (d.reverseOperator f).1 = g := by rw [h]
  unfold reverseOperator
  split
  · split
    · exact ⟨rfl, rfl⟩
    · exact ⟨rfl, rfl⟩
    · split <;> exact ⟨rfl, rfl⟩
    · exact ⟨rfl, rfl⟩
  · exact ⟨rfl, rfl⟩

/-- Only a function named after the class becomes a constructor. -/
theorem addedKind_named {f : Function} (hf : f.isConstructor = false)
    (h : (addedKind c f).isConstructor = true) : (addedKind c f).name = c.name := by
  unfold addedKind at h ⊢
  split at h
  · next hname =>
    rw [if_pos hname]
    split <;> exact hname
  · rw [hf] at h
    cases h

theorem added_named {a : AddedFunction} {f : Function} {ws : List Warning} {i : ClassId}
    (h : d.added a = .ok (f, ws)) (hi : d.class? = some i) (hf : f.isConstructor = true) :
    f.name = (d.lookup.store.get i).name := by
  unfold added at h
  extract_lets src rest at h
  obtain ⟨returnType?, h⟩ : ∃ returnType?, rest returnType? = .ok (f, ws) := by
    split at h
    · exact ⟨none, h⟩
    · obtain ⟨type?, -, h⟩ := Error.bind_eq_ok h
      exact ⟨type?, h⟩
  obtain ⟨args, -, h⟩ := Error.bind_eq_ok h
  extract_lets g at h
  split at h
  next f₁ ws₁ hreverse =>
  have hkind : f₁.isConstructor = false := by
    rw [Function.isConstructor_congr (reverseOperator_named hreverse).2]
    rfl
  split at h
  · next hnone =>
    rw [hnone] at hi
    cases hi
  · next j hsome =>
    obtain rfl := Option.some.inj (hsome.symm.trans hi)
    extract_lets c f₂ mods args f₃ at h
    cases h
    exact addedKind_named hkind hf

end Draft

/-! ### All ways -/

theorem memberOf_named {db : Database} {env : Env} {path : List String} {i : ClassId} {s : State}
    {d : FunctionDecl} {f : Function} (hmods : db.SameMods s.db)
    (hreleased : s.store.released = []) (hlt : i < s.store.classes.size)
    (h : memberOf env path i s d = some f) : f.NamedAfter db (s.store.get i) := by
  intro hf
  obtain ⟨g, hverdict, -, hfinished⟩ := memberOf_eq_some_iff.mp h
  let member : Function :=
    { g with attrs := g.attrs.insertIf (s.store.get i).isNamespace .static }
  obtain ⟨hsignature, hname⟩ := finishMember_named s (s.store.get i) member
  have hkind := (SameMaking.finishMember s (s.store.get i) member).kind
  rw [hfinished] at hsignature hname hkind
  have hconstructor : g.isConstructor = true := by
    rw [Function.isConstructor_congr hkind] at hf
    exact hf
  have hclass : g.name = (s.store.get i).name := Draft.judge_named hverdict rfl hconstructor
  obtain ⟨-, himplementing, -⟩ := Draft.judge_made hverdict
  have howner : member.implementing? = some i := himplementing
  rw [modsOf_of_implementing hreleased hlt howner, hmods.modsFor] at hname
  rw [hsignature]
  rcases hname with hsame | hrenamed
  · exact .inl (hsame.trans hclass)
  · exact .inr hrenamed

/-- Each way to get a function names constructors after their classes. -/
theorem namedAfter_upheld (env : Env) (db used : Database) :
    Upheld env db used fun c f => f.NamedAfter db c where
  head := by
    intro c d f hhead h
    have hentry := BoundClass.entry_eq_of_head hhead
    unfold Function.NamedAfter BoundClass.name at h ⊢
    rw [hentry]
    exact h
  settle := by
    intro c f p h hf
    have hsignature : (f.settle p).signature = f.signature := Function.signature_congr rfl rfl rfl
    rw [hsignature]
    exact h hf
  declared := memberOf_named
  added := by
    intro s path i a f ws hadded hf
    have hname := Draft.added_named (i := i) hadded rfl hf
    exact .inl hname
  implicit := by
    intro i c _
    exact .inl rfl
  implicitCopy := by
    intro i c isPrivate _
    exact .inl rfl
  taken := by
    intro bindings maxDepth c template f g _ _ hcopy hg
    rw [Function.isConstructor_congr hcopy.kind] at hg
    exact .inl (hcopy.name.trans (if_pos hg))
  operator := by
    intro c f hoperator hf
    unfold Function.isConstructor at hf
    rcases hoperator.kind with hkind | hkind <;> rw [hkind] at hf <;> cases hf

/-- In a finished model every constructor of a class, whichever way it came about, has the name of the
class, unless a modification of the class in the given rules covers and renames it. -/
theorem constructors_named {config : Config} {header : Header} {db : Database} {m : Model}
    (hm : (assemble config header db).result = .ok m) :
    ∀ c, ∀ f ∈ (m.store.get c).functions, f.isConstructor = true →
      (∀ x ∈ db.modsFor (m.store.get c).entry f.signature, x.isRenamed = false) →
      f.name = (m.store.get c).name := by
  intro c f hf hconstructor hmods
  have hnamed := functions_upheld hm (namedAfter_upheld (.make config header) db _) c f hf
  rcases hnamed hconstructor with hname | ⟨x, hx, hrenamed, -⟩
  · exact hname
  · rw [hmods x hx] at hrenamed
    cases hrenamed

def aliasRules : Database :=
  let (_, db) := Database.initial.add "int" .primitive
  let (_, db) := db.add "Holder" (.complex .container {})
  let (_, db) := db.add "Box" (.complex .object { added := [
    { name := "Box", args := [⟨"n", .ofName "int", none⟩, ⟨"m", .ofName "int", none⟩],
      returnType := .ofName "void", isConst := false }] })
  let (_, db) := db.add "Plain" (.complex .object {})
  (db.add "IntHolder" (.complex .value {})).2

/-- A template with a constructor, a class with a function of its name and one that the rules add, a
class without members, and a typedef of an instance. -/
def aliasHeader : Header where
  global.classes := [
    { decls := { name := "Holder<T>", functions := [
        { name := "Holder<T>", kind := .constructor, args := [⟨"value", .ofName "T", none⟩] }] }
      templateParams := ["T"] },
    { decls := { name := "Box", functions := [
        { name := "Box", args := [⟨"n", .ofName "int", none⟩] }] } },
    { decls := { name := "Plain" } }]
  global.decls.typedefs := [
    { name := "IntHolder", target := { name := ["Holder"], args := [.ofName "int"] } }]

theorem constructors_named_alias :
    ∃ m, (assemble {} aliasHeader aliasRules).result = .ok m ∧
      m.allClasses.map (fun c => ((m.store.get c).name, (m.store.get c).constructors.length)) =
        [("Box", 2), ("Plain", 1), ("IntHolder", 2), ("Holder", 1)] ∧
      ∀ c ∈ m.allClasses, ∀ f ∈ (m.store.get c).constructors, f.name = (m.store.get c).name := by
  obtain ⟨m, hm, hfacts⟩ := exists_model_of_any (p := fun m =>
    decide (m.allClasses.map (fun c => ((m.store.get c).name, (m.store.get c).constructors.length)) =
      [("Box", 2), ("Plain", 1), ("IntHolder", 2), ("Holder", 1)]) &&
    m.allClasses.all fun c => (aliasRules.mods (m.store.get c).entry).isEmpty)
    (show (assemble {} aliasHeader aliasRules).result.toOption.any _ = true by decide +kernel)
  simp only [Bool.and_eq_true, decide_eq_true_eq, List.all_eq_true, List.isEmpty_iff] at hfacts
  obtain ⟨hcounts, hmods⟩ := hfacts
  refine ⟨m, hm, hcounts, fun c hc f hf => ?_⟩
  obtain ⟨hmem, hconstructor⟩ := List.mem_filter.mp hf
  refine constructors_named hm c f hmem hconstructor fun x hx => ?_
  unfold Database.modsFor at hx
  rw [hmods c hc] at hx
  cases hx

end Assembly
end BindingModel
