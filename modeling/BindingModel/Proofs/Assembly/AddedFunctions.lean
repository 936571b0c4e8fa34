import BindingModel.Proofs.Assembly.Verdicts

/-! What a function of the rules is made into inside a class: its types are bound there, one by one,
and the modifications replace its defaults. -/
namespace BindingModel.Assembly
open Api

namespace Draft
variable {d : Draft} {a : AddedFunction} {f g : Function} {c : ClassId} {i k : Nat}
  {l : List AddedArgument} {args : List Argument} {ws : List Warning} {t : TypeExpr} {b : BoundType}

theorem bindNamed_eq_ok_iff : d.bindNamed t = .ok b ↔ d.bindType t = .ok b := by
  unfold bindNamed
  cases d.bindType t <;> simp

/-! ### Arguments -/

/-- The argument that a parameter becomes once its type is bound. -/
structure GivesAdded (d : Draft) (p : AddedArgument) (x : Argument) : Prop where
  type : d.bindType p.type = .ok x.type
  default? : x.default? = p.default?
  declaredDefault? : x.declaredDefault? = p.default?

/-- Every parameter becomes the argument at its position. -/
theorem bindAdded_gives (h : d.bindAdded i l = .ok args) : args.length = l.length ∧
    ∀ (k : Nat) x, args[k]? = some x → ∃ p, l[k]? = some p ∧ d.GivesAdded p x := by
  induction l generalizing i args with
  | nil =>
    cases h
    exact ⟨rfl, fun k x hx => by cases hx⟩
  | cons p l ih =>
    unfold bindAdded at h
    obtain ⟨type, htype, h⟩ := Error.bind_eq_ok h
    obtain ⟨rest, hrest, h⟩ := Error.bind_eq_ok h
    cases h
    obtain ⟨hlength, hgives⟩ := ih hrest
    refine ⟨congrArg (· + 1) hlength, fun k x hx => ?_⟩
    cases k with
    | zero =>
      cases hx
      exact ⟨p, rfl, bindNamed_eq_ok_iff.mp htype, rfl, rfl⟩
    | succ k => exact hgives k x hx

theorem exists_bindAdded (hl : ∀ p ∈ l, ∃ t, d.bindType p.type = .ok t) :
    ∃ args, d.bindAdded i l = .ok args := by
  induction l generalizing i with
  | nil => exact ⟨[], rfl⟩
  | cons p l ih =>
    obtain ⟨⟨t, ht⟩, hl⟩ := List.forall_mem_cons.mp hl
    obtain ⟨args, hrest⟩ := ih (i := i + 1) hl
    unfold bindAdded
    rw [bindNamed_eq_ok_iff.mpr ht, hrest]
    exact ⟨_, rfl⟩

/-! ### The function as a whole -/

/-- The return type that a rule names, if it names one. -/
def ReturnsAdded (d : Draft) (a : AddedFunction) (returnType? : Option BoundType) : Prop :=
  if a.returnType.isVoid then returnType? = none
  else ∃ t, d.bindType a.returnType = .ok t ∧ returnType? = some t

/-- The function once its types are bound. -/
def addedDraft (a : AddedFunction) (returnType? : Option BoundType) (args : List Argument) :
    Function :=
  { Function.make a.name .normal with
    attrs := FlagSet.ofList [.added, .finalInTargetLang]
      |>.insertIf a.isStatic .static |>.insertIf a.isConst .const
    visibility := if a.isProtected then .prot else .pub
    returnType?
    args }

/-- What the class and its modifications make of it. -/
def finishAdded (d : Draft) (c : ClassId) (f : Function) : Function :=
  let mods := d.lookup.store.modsOf d.lookup.db (f.setOwner c)
  addedKind (d.lookup.store.get c) { f.setOwner c with
    args := fixArgumentNames mods (f.args.mapIdx fun k x => replaceDefault mods (k + 1) x)
    attrs := f.attrs.insertIf (d.lookup.store.get c).isNamespace .static }

/-- A rule adds a function to a class as soon as its types can be bound. -/
theorem added_eq_ok_iff (hc : d.class? = some c) : d.added a = .ok (f, ws) ↔
    ∃ returnType? args, d.ReturnsAdded a returnType? ∧ d.bindAdded 0 a.args = .ok args ∧
      f = d.finishAdded c (d.reverseOperator (addedDraft a returnType? args)).1 ∧
      ws = (d.reverseOperator (addedDraft a returnType? args)).2 := by
  unfold added
  extract_lets _ rest
  have hrest : ∀ returnType?, rest returnType? = .ok (f, ws) ↔
      ∃ args, d.bindAdded 0 a.args = .ok args ∧
        f = d.finishAdded c (d.reverseOperator (addedDraft a returnType? args)).1 ∧
        ws = (d.reverseOperator (addedDraft a returnType? args)).2 := by
    intro returnType?
    subst rest
    dsimp only
    cases hargs : d.bindAdded 0 a.args with
    | error e =>
      refine ⟨fun h => (by cases h), ?_⟩
      rintro ⟨_, h, -⟩
      cases h
    | ok args =>
      rw [hc]
      let g := d.reverseOperator (addedDraft a returnType? args)
      show (Except.ok (d.finishAdded c g.1, g.2) : Except Error _) = .ok (f, ws) ↔ _
      simp [g, eq_comm]
  by_cases hvoid : a.returnType.isVoid = true
  · rw [if_pos hvoid]
    simp only [ReturnsAdded, hvoid, if_true, exists_and_left, exists_eq_left]
    exact hrest none
  · rw [if_neg hvoid]
    cases ht : d.bindNamed a.returnType with
    | error e =>
      refine ⟨fun h => (by cases h), ?_⟩
      rintro ⟨_, _, hreturns, -⟩
      unfold ReturnsAdded at hreturns
      rw [if_neg hvoid] at hreturns
      obtain ⟨t, htype, -⟩ := hreturns
      cases ht.symm.trans (bindNamed_eq_ok_iff.mpr htype)
    | ok t =>
      have hreturns : ∀ returnType?, d.ReturnsAdded a returnType? ↔ returnType? = some t := by
        intro returnType?
        unfold ReturnsAdded
        rw [if_neg hvoid, bindNamed_eq_ok_iff.mp ht]
        simp
      simp only [hreturns, exists_and_left, exists_eq_left]
      exact hrest (some t)

/-! ### What becomes of the arguments -/

/-- Of an operator with two arguments the second one may be taken away. -/
theorem reverseOperator_args (d : Draft) (f : Function) :
    (d.reverseOperator f).1.args <+: f.args := by
  unfold reverseOperator
  split
  · split
    · exact List.prefix_rfl
    · exact List.prefix_rfl
    · next first second hargs =>
      split
      · rw [hargs]
        exact List.prefix_append [first] [second]
      · exact List.prefix_rfl
    · exact List.prefix_rfl
  · exact List.prefix_rfl

theorem reverseOperator_of_not_operator (d : Draft) (h : f.isOperator = false) :
    d.reverseOperator f = (f, []) := by
  unfold reverseOperator
  rw [h, Bool.false_and, if_neg Bool.false_ne_true]

theorem addedKind_same (c : BoundClass) (f : Function) :
    (addedKind c f).name = f.name ∧ (addedKind c f).args = f.args := by
  unfold addedKind
  split
  · split <;> exact ⟨rfl, rfl⟩
  · exact ⟨rfl, rfl⟩

/-- Every argument stays at its position and keeps its type; its default may be replaced. -/
theorem finishAdded_args (d : Draft) (c : ClassId) (f : Function) :
    let mods := d.lookup.store.modsOf d.lookup.db (f.setOwner c)
    (d.finishAdded c f).args.length = f.args.length ∧
      ∀ (k : Nat) x, f.args[k]? = some x → ∃ y, (d.finishAdded c f).args[k]? = some y ∧
        y.type = x.type ∧ y.default? = (replaceDefault mods (k + 1) x).default? := by
  intro mods
  let replaced := f.args.mapIdx fun k x => replaceDefault mods (k + 1) x
  have hargs : (d.finishAdded c f).args = fixArgumentNames mods replaced := (addedKind_same _ _).2
  have hkept : (fixArgumentNames mods replaced).map (fun x => (x.type, x.default?)) =
      replaced.map fun x => (x.type, x.default?) := map_fixArgumentNames (fun _ _ _ => rfl) mods
  have htype : ∀ k x, (replaceDefault mods k x).type = x.type := by
    intro k x
    unfold replaceDefault
    split <;> rfl
  rw [hargs]
  constructor
  · have hlength := congrArg List.length hkept
    rw [List.length_map, List.length_map, List.length_mapIdx] at hlength
    exact hlength
  · intro k x hx
    have hreplaced : replaced[k]? = some (replaceDefault mods (k + 1) x) := by
      rw [List.getElem?_mapIdx, hx, Option.map_some]
    obtain ⟨y, hy, hsame⟩ := exists_of_map_eq hkept hreplaced
    rw [Prod.mk.injEq] at hsame
    exact ⟨y, hy, hsame.1.trans (htype _ _), hsame.2⟩

/-- Every argument has the type that its parameter has in the class. -/
theorem added_types (hc : d.class? = some c) (h : d.added a = .ok (f, ws)) {x : Argument}
    (hx : f.args[k]? = some x) : ∃ p, a.args[k]? = some p ∧ d.bindType p.type = .ok x.type := by
  obtain ⟨returnType?, args, -, hargs, rfl, -⟩ := (added_eq_ok_iff hc).mp h
  let g := (d.reverseOperator (addedDraft a returnType? args)).1
  obtain ⟨hlength, hkept⟩ := d.finishAdded_args c g
  have hk := (List.getElem?_eq_some_iff.mp hx).1
  rw [hlength] at hk
  obtain ⟨y, hy, htype, -⟩ := hkept k g.args[k] (List.getElem?_eq_getElem hk)
  obtain rfl := Option.some.inj (hx.symm.trans hy)
  obtain ⟨rest, hrest⟩ := d.reverseOperator_args (addedDraft a returnType? args)
  have hleft : (g.args ++ rest)[k]? = g.args[k]? := List.getElem?_append_left hk
  rw [hrest, List.getElem?_eq_getElem hk] at hleft
  obtain ⟨p, hp, hgives⟩ := (bindAdded_gives hargs).2 k _ hleft
  exact ⟨p, hp, htype ▸ hgives.type⟩

end Draft
end BindingModel.Assembly
