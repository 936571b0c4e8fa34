import BindingModel.Proofs.Assembly.AddedFunctions
import BindingModel.Proofs.Lookup.Innermost

/-! Which functions count as copying or moving their class: those whose first parameter is spelled
like the class, whatever class that is. -/
namespace BindingModel
open Api Header

/-- A name without arguments or dimensions, other than `void`. -/
structure TypeExpr.IsName (t : TypeExpr) : Prop where
  args : t.args = []
  dims : t.dims = []
  params? : t.params? = none
  isVoid : t.isVoid = false

namespace Assembly

/-! ### Declarations -/

/-- The declaration is spelled like a constructor of a class of that name that takes the class by a
reference of that kind and needs no other argument. -/
structure SpellsCopy (d : FunctionDecl) (name : String) (ref : RefKind) : Prop where
  named : d.kind = .constructor ∨ Text.withoutArguments d.name = name
  first : ∃ p rest, d.args = p :: rest ∧ p.type.localName = name ∧ p.type.pointers = 0 ∧
    p.type.ref = ref ∧ ∀ q ∈ rest, q.default?.isSome = true

section
variable {d : FunctionDecl} {name : String}

/-- What is neither declared nor named as a constructor keeps its kind. -/
theorem kindInClass_of_not_named (hd : d.kind = .normal ∨ d.kind = .constructor)
    (hnamed : ¬ (d.kind = .constructor ∨ Text.withoutArguments d.name = name)) :
    kindInClass d name = .normal := by
  obtain ⟨hkind, hname⟩ := not_or.mp hnamed
  obtain hnormal := hd.resolve_right hkind
  unfold kindInClass
  simp [hnormal, hname, Api.FunctionKind.ofDecl]

theorem kindInClass_of_named (hd : d.kind = .normal ∨ d.kind = .constructor)
    (hnamed : d.kind = .constructor ∨ Text.withoutArguments d.name = name) :
    (kindInClass d name = .copyConstructor ↔ SpellsCopy d name .lvalue) ∧
      (kindInClass d name = .moveConstructor ↔ SpellsCopy d name .rvalue) := by
  have hconstructor : (if Api.FunctionKind.ofDecl d.kind = .normal ∧
      Text.withoutArguments d.name = name then Api.FunctionKind.constructor
      else .ofDecl d.kind) = .constructor := by
    rcases hd with hnormal | hkind
    · have hname := hnamed.resolve_left (by simp [hnormal])
      simp [hnormal, hname, Api.FunctionKind.ofDecl]
    · simp [hkind, Api.FunctionKind.ofDecl]
  unfold kindInClass
  dsimp only
  rw [hconstructor]
  cases hargs : d.args with
  | nil =>
    refine ⟨⟨fun h => (by cases h), ?_⟩, ⟨fun h => (by cases h), ?_⟩⟩ <;>
    · rintro ⟨-, p, rest, hargs', -⟩
      cases hargs.symm.trans hargs'
  | cons p rest =>
    have hspells : ∀ ref, SpellsCopy d name ref ↔ (p.type.localName = name ∧
        p.type.pointers = 0 ∧ rest.all (·.default?.isSome) = true) ∧ p.type.ref = ref := by
      intro ref
      rw [List.all_eq_true]
      constructor
      · rintro ⟨-, p', rest', hargs', hname, hpointers, href, hrest⟩
        cases hargs.symm.trans hargs'
        exact ⟨⟨hname, hpointers, hrest⟩, href⟩
      · rintro ⟨⟨hname, hpointers, hrest⟩, href⟩
        exact ⟨hnamed, p, rest, hargs, hname, hpointers, href, hrest⟩
    rw [hspells, hspells]
    dsimp only
    split
    · next hfirst =>
      cases href : p.type.ref <;> simp [hfirst]
    · next hfirst =>
      exact ⟨⟨fun h => (by cases h), fun h => absurd h.1 hfirst⟩,
        ⟨fun h => (by cases h), fun h => absurd h.1 hfirst⟩⟩

theorem kindInClass_iff (name : String) (hd : d.kind = .normal ∨ d.kind = .constructor) :
    (kindInClass d name = .copyConstructor ↔ SpellsCopy d name .lvalue) ∧
      (kindInClass d name = .moveConstructor ↔ SpellsCopy d name .rvalue) := by
  by_cases hnamed : d.kind = .constructor ∨ Text.withoutArguments d.name = name
  · exact kindInClass_of_named hd hnamed
  · rw [kindInClass_of_not_named hd hnamed]
    refine ⟨⟨fun h => (by cases h), ?_⟩, ⟨fun h => (by cases h), ?_⟩⟩ <;>
    · intro h
      exact absurd h.named hnamed

end

/-! ### The first argument -/

namespace Draft
variable {d : Draft} {f : FunctionDecl} {g : Function} {c : ClassId} {p : ArgumentDecl}
  {l : List ArgumentDecl} {args : List Argument} {ws : List Warning} {key : String} {i : Nat}
  {t : BoundType}

theorem bindArguments_cons (ht : d.bindType p.type = .ok t)
    (h : d.bindArguments key i (p :: l) = .ok (args, ws)) :
    ∃ x rest, args = x :: rest ∧ x.type = t := by
  unfold bindArguments at h
  rw [ht] at h
  obtain ⟨⟨rest, more⟩, -, h⟩ := Error.bind_eq_ok h
  cases h
  exact ⟨_, rest, rfl, rfl⟩

/-- A first parameter that is no pointer becomes the first argument as soon as its type is bound. -/
theorem judge_first {skipDeprecated : Bool} (hc : d.class? = some c)
    (h : (d.judge skipDeprecated f).1 = .built g) (hp : f.args.head? = some p)
    (hvoid : p.type.isVoid = false) (ht : d.bindType p.type = .ok t) (hpointers : t.pointers = 0) :
    ∃ a, g.args.head? = some a ∧ a.type = t := by
  obtain ⟨-, returnType?, args, ws, -, hbound, rfl⟩ := judge_eq_built_iff.mp h
  obtain ⟨rest, hargs⟩ := List.head?_eq_some_iff.mp hp
  have hparameters : parameters f = p :: rest := by
    unfold parameters
    rw [hargs, if_neg]
    rintro ⟨-, hall⟩
    simp [hvoid] at hall
  rw [hparameters] at hbound
  obtain ⟨x, more, rfl, hx⟩ := bindArguments_cons ht hbound
  obtain ⟨-, hedited⟩ := finish_edited hc (d.drafted f returnType? (x :: more))
  obtain ⟨a, ha, hedit⟩ := hedited 0 x rfl
  refine ⟨a, by rw [List.head?_eq_getElem?, ha], ?_⟩
  rw [hedit.marked.eq_of_pointers (hx ▸ hpointers), hx]

end Draft

/-- What a member has from the verdict on its declaration. -/
theorem judge_of_memberOf {env : Env} {path : List String} {i : ClassId} {s : State}
    {d : FunctionDecl} {f : Function} (h : memberOf env path i s d = some f) :
    ∃ g, (Draft.judge ⟨s.lookup env, path, some i⟩ env.config.skipDeprecated d).1 = .built g ∧
      f.kind = g.kind ∧ f.args = g.args := by
  obtain ⟨g, hg, -, rfl⟩ := memberOf_eq_some_iff.mp h
  have hmaking := SameMaking.finishMember s (s.store.get i)
    { g with attrs := g.attrs.insertIf (s.store.get i).isNamespace .static }
  exact ⟨g, hg, hmaking.kind, hmaking.args⟩

theorem kind_of_memberOf {env : Env} {path : List String} {i : ClassId} {s : State}
    {d : FunctionDecl} {f : Function} (h : memberOf env path i s d = some f) :
    f.kind = kindInClass d (s.store.get i).name ∨ f.isAssignment = true := by
  obtain ⟨g, hg, hkind, -⟩ := judge_of_memberOf h
  obtain ⟨-, returnType?, args, ws, -, -, rfl⟩ := Draft.judge_eq_built_iff.mp hg
  unfold Function.isAssignment
  rcases (Draft.finish_kept _ _).2.2 with hsame | hassignment | hassignment
  · exact .inl (hkind.trans hsame)
  · rw [hkind, hassignment]
    exact .inr rfl
  · rw [hkind, hassignment]
    exact .inr rfl

theorem kind_eq_iff_of_memberOf {env : Env} {path : List String} {i : ClassId} {s : State}
    {d : FunctionDecl} {f : Function} (h : memberOf env path i s d = some f)
    {k : Api.FunctionKind} (hk : k = .copyConstructor ∨ k = .moveConstructor) :
    f.kind = k ↔ f.isAssignment = false ∧ kindInClass d (s.store.get i).name = k := by
  have hplain : f.kind = k → f.isAssignment = false := by
    rintro rfl
    unfold Function.isAssignment
    rcases hk with hk | hk <;> rw [hk] <;> rfl
  rcases kind_of_memberOf h with hsame | hassigned
  · exact ⟨fun h => ⟨hplain h, hsame.symm.trans h⟩, fun h => hsame.trans h.2⟩
  · refine ⟨fun h => ?_, fun h => ?_⟩
    · cases hassigned.symm.trans (hplain h)
    · cases hassigned.symm.trans h.1

/-! ### Functions of rules -/

theorem addedKind_kind (c : BoundClass) {f : Function} (hf : f.kind = .normal) :
    (Draft.addedKind c f).kind ≠ .moveConstructor ∧
      ((Draft.addedKind c f).kind = .copyConstructor ↔
        f.name = c.name ∧ ∃ only, f.args = [only] ∧ only.type.entry.localName = c.name) := by
  unfold Draft.addedKind
  split
  · next hname =>
    split
    · next only hargs =>
      dsimp only
      split <;> simp_all
    · next hargs =>
      simp_all
  · next hname =>
    simp_all

theorem kind_of_added {d : Draft} {a : AddedFunction} {f : Function} {ws : List Warning}
    {c : ClassId} (hc : d.class? = some c) (h : d.added a = .ok (f, ws)) :
    f.kind ≠ .moveConstructor ∧
      (f.kind = .copyConstructor ↔ f.name = (d.lookup.store.get c).name ∧
        ∃ only, f.args = [only] ∧ only.type.entry.localName = (d.lookup.store.get c).name) := by
  obtain ⟨returnType?, args, -, -, rfl, -⟩ := (Draft.added_eq_ok_iff hc).mp h
  have hnormal : (d.reverseOperator (Draft.addedDraft a returnType? args)).1.kind = .normal :=
    (Draft.reverseOperator_named (Prod.eta _).symm).2
  unfold Draft.finishAdded
  dsimp only
  rw [(Draft.addedKind_same _ _).1, (Draft.addedKind_same _ _).2]
  exact addedKind_kind _ hnormal

/-- The first parameter of a declaration alone decides whether the member copies or moves its class,
and decides by its last name; whatever entry the name means is the one of the first argument. A
function of the rules copies the class if its only argument has an entry of that last name, with any
indirections. -/
theorem copies_by_spelling (env : Env) (path : List String) (i : ClassId) (s : State) :
    let c := s.store.get i
    let draft : Draft := ⟨s.lookup env, path, some i⟩
    (∀ d f, memberOf env path i s d = some f → d.kind = .normal ∨ d.kind = .constructor →
      (f.kind = .copyConstructor ↔ f.isAssignment = false ∧ SpellsCopy d c.name .lvalue) ∧
      (f.kind = .moveConstructor ↔ f.isAssignment = false ∧ SpellsCopy d c.name .rvalue) ∧
      ∀ p e, d.args.head? = some p → p.type.pointers = 0 → p.type.IsName →
        draft.lookup.meaning? p.type.qualifiedName p.type.localName (some i) = some e →
        ∃ a, f.args.head? = some a ∧ a.type.entry = e ∧ a.type.pointers = 0) ∧
    ∀ a f ws, draft.added a = .ok (f, ws) →
      f.kind ≠ .moveConstructor ∧
      (f.kind = .copyConstructor ↔
        f.name = c.name ∧ ∃ only, f.args = [only] ∧ only.type.entry.localName = c.name) ∧
      ∀ (k : Nat) x, f.args[k]? = some x →
        ∃ p, a.args[k]? = some p ∧ draft.bindType p.type = .ok x.type := by
  intro c draft
  refine ⟨fun d f hf hd => ?_, fun a f ws hf => ?_⟩
  · obtain ⟨g, hg, -, hargs⟩ := judge_of_memberOf hf
    obtain ⟨hcopy, hmove⟩ := kindInClass_iff c.name hd
    rw [kind_eq_iff_of_memberOf hf (.inl rfl), kind_eq_iff_of_memberOf hf (.inr rfl), hcopy, hmove]
    refine ⟨.rfl, .rfl, ?_⟩
    intro p e hp hpointers hname he
    have ht : draft.bindType p.type = .ok _ :=
      Lookup.bindType_of_meaning? hname.args hname.dims hname.params? he
    obtain ⟨x, hx, htype⟩ := Draft.judge_first rfl hg hp hname.isVoid ht hpointers
    refine ⟨x, hargs ▸ hx, ?_, ?_⟩
    · rw [htype]
      rfl
    · rw [htype]
      exact hpointers
  · obtain ⟨hmove, hcopy⟩ := kind_of_added rfl hf
    exact ⟨hmove, hcopy, fun k x hx => Draft.added_types rfl hf hx⟩

theorem copies_by_spelling_own :
    let env : Env := .make {} {}
    let color : Entry := ⟨some 0, "Gui::Color", .complex .value {}⟩
    let s : State := {
      db := { entries := [color] }, store := { classes := #[{ entry := color }] },
      registry := { members := [0] } }
    let copy : FunctionDecl := {
      name := "Color"
      kind := .constructor
      args := [{
        name := "other", type := { name := ["Color"], isConst := true, ref := .lvalue } }] }
    ∃ f a, memberOf env ["Gui", "Color"] 0 s copy = some f ∧ f.kind = .copyConstructor ∧
      f.args.head? = some a ∧ a.type.entry = color ∧ a.type.pointers = 0 := by
  intro env color s copy
  obtain ⟨f, hf, hassigned⟩ : ∃ f, memberOf env ["Gui", "Color"] 0 s copy = some f ∧
      f.isAssignment = false := by
    subst copy s color env
    exact ⟨_, by with_unfolding_all rfl, by with_unfolding_all rfl⟩
  have hmeaning : (s.lookup env).meaning? "Color" "Color" (some 0) = some color := by
    subst copy s color env
    rfl
  obtain ⟨hdeclared, -⟩ := copies_by_spelling env ["Gui", "Color"] 0 s
  obtain ⟨hcopy, -, hfirst⟩ := hdeclared copy f hf (.inr rfl)
  have hspells : SpellsCopy copy (s.store.get 0).name .lvalue :=
    ⟨.inl rfl, _, [], rfl, by decide +kernel, rfl, rfl, by simp⟩
  obtain ⟨a, ha, hentry, hpointers⟩ :=
    hfirst _ color rfl rfl ⟨rfl, rfl, rfl, by decide⟩ hmeaning
  exact ⟨f, a, hf, hcopy.mpr ⟨hassigned, hspells⟩, ha, hentry, hpointers⟩

/-- Two classes `Color`, one of which gets a constructor from the rules. -/
def colorRules : Database :=
  let (_, db) := Database.initial.add "Paint" (.complex .namespaceScope {})
  let (_, db) := db.add "Paint::Color" (.complex .value {})
  let (_, db) := db.add "Gui" (.complex .namespaceScope {})
  (db.add "Gui::Color" (.complex .value {
    added := [{
      name := "Color"
      args := [⟨"other", { name := ["Color"], pointers := 1 }, none⟩]
      returnType := .ofName "void"
      isConst := false }] })).2

/-- One `Color` is made of the other. -/
def colorHeader : Header where
  global.namespaces := [
    { decls := { name := "Paint" }, classes := [{ decls := { name := "Color" } }] },
    { decls := { name := "Gui" }
      classes := [{
        decls := {
          name := "Color"
          functions := [{
            name := "Color"
            kind := .constructor
            args := [{
              name := "other"
              type := { name := ["Paint", "Color"], isConst := true, ref := .lvalue } }] }] } }] }]

/-- A constructor from another class of the same name and one from a pointer count as copying, and
keep the class from getting a constructor that copies it. -/
theorem foreign_color_copies :
    ∃ m, (assemble {} colorHeader colorRules).result = .ok m ∧ ∃ c ∈ m.classes,
      (m.store.get c).qualifiedName = "Gui::Color" ∧
      (m.store.get c).functions.map
          (fun f => (f.kind, f.args.map fun a => (a.type.entry.name, a.type.pointers))) =
        [(.copyConstructor, [("Paint::Color", 0)]), (.copyConstructor, [("Gui::Color", 1)])] := by
  obtain ⟨m, hm, hcolor⟩ := exists_model_of_any (p := fun m => m.classes.any fun c =>
    decide ((m.store.get c).qualifiedName = "Gui::Color") &&
    decide ((m.store.get c).functions.map
      (fun f => (f.kind, f.args.map fun a => (a.type.entry.name, a.type.pointers))) =
        [(.copyConstructor, [("Paint::Color", 0)]), (.copyConstructor, [("Gui::Color", 1)])]))
    (show (assemble {} colorHeader colorRules).result.toOption.any _ = true by decide +kernel)
  simp only [List.any_eq_true, Bool.and_eq_true, decide_eq_true_eq] at hcolor
  exact ⟨m, hm, hcolor⟩

end Assembly
end BindingModel
