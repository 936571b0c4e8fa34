import BindingModel.Proofs.Lookup.Levels

/-! Qualifiers, indirections and references do not decide whether a type can be bound, nor whether a
limit is reported. -/
namespace BindingModel

/-- The types differ in qualifiers, indirections and references only. -/
structure TypeExpr.SameParts (t u : TypeExpr) : Prop where
  name : t.name = u.name
  dims : t.dims = u.dims
  args : t.args = u.args
  params? : t.params? = u.params?

theorem TypeExpr.SameParts.symm {t u : TypeExpr} (h : t.SameParts u) : u.SameParts t :=
  ⟨h.name.symm, h.dims.symm, h.args.symm, h.params?.symm⟩

namespace Header
variable {h : Header} {scope : List String} {t u r : TypeExpr} {limit n : Nat}

theorem sameParts_appliedTo (d : TypedefDecl) (htu : t.SameParts u) :
    (d.appliedTo t).SameParts (d.appliedTo u) where
  name := rfl
  dims := congrArg (d.target.dims ++ ·) htu.dims
  args := by
    unfold TypedefDecl.appliedTo
    rw [htu.args]
  params? := rfl

theorem sameParts_expanded (ds : List TypedefDecl) (htu : t.SameParts u) :
    (expanded t ds).SameParts (expanded u ds) := by
  unfold expanded
  induction ds generalizing t u with
  | nil => exact htu
  | cons d ds ih => exact ih (sameParts_appliedTo d htu)

theorem resolve_eq_self_iff (hr : h.resolve t scope limit = .ok r) :
    r = t ↔ h.Unaliased scope t.name := by
  constructor
  · rintro rfl
    exact unaliased_of_resolve hr
  · exact fun hplain => eq_of_resolve hplain hr

/-- The same typedefs are expanded. -/
theorem exists_resolve (htu : t.SameParts u) (hr : h.resolve t scope limit = .ok r) :
    ∃ r', h.resolve u scope limit = .ok r' ∧ r.SameParts r' ∧ (r = t ↔ r' = u) := by
  obtain ⟨ds, hds, hplain, hshort, rfl⟩ := expandAll_eq_ok_iff.mp hr
  have hparts := sameParts_expanded ds htu
  rw [htu.name, hparts.name] at hds
  rw [hparts.name] at hplain
  have hr' : h.resolve u scope limit = .ok (expanded u ds) :=
    expandAll_eq_ok_iff.mpr ⟨ds, hds, hplain, hshort, rfl⟩
  refine ⟨expanded u ds, hr', hparts, ?_⟩
  rw [resolve_eq_self_iff hr, resolve_eq_self_iff hr', htu.name]

theorem resolve_eq_error {e : Error} (hr : h.resolve t scope limit = .error e) :
    e = .recursionLimit limit := by
  have hnone : ∀ r, h.expandAll scope limit limit t ≠ .ok r := by
    intro r hok
    cases hr.symm.trans hok
  exact Except.error.inj (hr.symm.trans (expandAll_eq_error hnone))

/-- Too many typedefs are too many for both. -/
theorem resolve_error_same {e : Error} (htu : t.SameParts u)
    (hr : h.resolve t scope limit = .error e) : h.resolve u scope limit = .error e := by
  cases hu : h.resolve u scope limit with
  | ok r =>
    obtain ⟨r', hr', -⟩ := exists_resolve htu.symm hu
    cases hr.symm.trans hr'
  | error e' => rw [resolve_eq_error hr, resolve_eq_error hu]

end Header

namespace Lookup
open Api
variable {l : Lookup} {self : TypeExpr → Except Error BoundType} {class? : Option ClassId}
  {scope : List String} {t u : TypeExpr} {n : Nat}

/-- Both outcomes are values, both report a limit, or both are other errors. -/
inductive SameOutcome {α : Type} : Except Error α → Except Error α → Prop
  | ok (a b : α) : SameOutcome (.ok a) (.ok b)
  | limit (k k' : Nat) :
      SameOutcome (.error (.recursionLimit k)) (.error (.recursionLimit k'))
  | error {e e' : Error} (he : ∀ k, e ≠ .recursionLimit k) (he' : ∀ k, e' ≠ .recursionLimit k) :
      SameOutcome (.error e) (.error e')

namespace SameOutcome
variable {α β : Type} {x y : Except Error α}

theorem refl (x : Except Error α) : SameOutcome x x := by
  cases x with
  | ok a => exact .ok a a
  | error e =>
    cases e
    case recursionLimit k => exact .limit k k
    all_goals exact .error (fun _ => by simp) (fun _ => by simp)

theorem map (h : SameOutcome x y) (f g : α → β) : SameOutcome (x.map f) (y.map g) := by
  cases h with
  | ok a b => exact .ok _ _
  | limit k k' => exact .limit k k'
  | error he he' => exact .error he he'

theorem not_ok {e : Error} (h : SameOutcome (.error e) y) (b : α) : y ≠ .ok b := by
  cases h <;> simp

end SameOutcome

theorem attachArguments_same {b c : BoundType} (hentry : b.entry = c.entry) {i : Nat}
    {args : List TypeExpr} :
    SameOutcome (attachArguments self t i b args) (attachArguments self u i c args) := by
  induction args generalizing i b c with
  | nil => exact .ok _ _
  | cons arg args ih =>
    unfold attachArguments
    cases self arg with
    | error e =>
      cases e
      case recursionLimit k => exact .limit k k
      all_goals exact .error (fun _ => by simp [argumentError]) (fun _ => by simp [argumentError])
    | ok a =>
      unfold BoundType.addArgument
      by_cases htakes : b.entry.kind.takesArguments = true
      · have htakes' : c.entry.kind.takesArguments = true := hentry ▸ htakes
        simp only [htakes, htakes', if_true]
        apply ih
        exact hentry
      · have htakes' : ¬ c.entry.kind.takesArguments = true := hentry ▸ htakes
        simp only [htakes, htakes']
        exact .error (fun _ => by simp) (fun _ => by simp)

/-- An array is bound by a type that differs from its element in indirections at most. -/
theorem exists_bindArray (l : Lookup) (self : TypeExpr → Except Error BoundType) (t : TypeExpr) :
    ∃ v f, v.SameParts { t with dims := [] } ∧ l.bindArray self t = (self v).map f := by
  unfold bindArray
  by_cases hstring : isString t = true
  · rw [if_pos hstring]
    refine ⟨{ t with dims := [], pointers := 1 }, id, ⟨rfl, rfl, rfl, rfl⟩, ?_⟩
    cases self { t with dims := [], pointers := 1 } <;> rfl
  · rw [if_neg hstring]
    exact ⟨{ t with dims := [] }, _, ⟨rfl, rfl, rfl, rfl⟩, rfl⟩

theorem bindWritten_same (hself : ∀ v w : TypeExpr, v.SameParts w → SameOutcome (self v) (self w))
    (htu : t.SameParts u) :
    SameOutcome (l.bindWritten self class? t) (l.bindWritten self class? u) := by
  have hpointer : t.isFunctionPointer = u.isFunctionPointer := congrArg Option.isSome htu.params?
  have harray : t.isArray = u.isArray := by
    unfold TypeExpr.isArray
    rw [htu.dims]
  by_cases hu : u.isFunctionPointer = true
  · unfold bindWritten
    rw [if_pos (hpointer.trans hu), if_pos hu]
    exact .error (fun _ => by simp) (fun _ => by simp)
  by_cases hua : u.isArray = true
  · obtain ⟨v, f, hv, htv⟩ := l.exists_bindArray self t
    obtain ⟨w, g, hw, huw⟩ := l.exists_bindArray self u
    unfold bindWritten
    rw [if_neg (hpointer ▸ hu), if_pos (harray.trans hua), if_neg hu, if_pos hua, htv, huw]
    exact (hself v w ⟨hv.name.trans (htu.name.trans hw.name.symm), hv.dims.trans hw.dims.symm,
      hv.args.trans (htu.args.trans hw.args.symm),
      hv.params?.trans (htu.params?.trans hw.params?.symm)⟩).map f g
  have hparams : u.params? = none := by simpa [TypeExpr.isFunctionPointer] using hu
  have hdims : u.dims = [] := by simpa [TypeExpr.isArray] using hua
  have hqualified : t.qualifiedName = u.qualifiedName := congrArg Text.qualified htu.name
  have hlocal : t.localName = u.localName := congrArg (·.getLastD "") htu.name
  have hname : lookupName t = lookupName u := by
    unfold lookupName TypeExpr.instanceName
    rw [hqualified, htu.args]
  have hargs : boundArgs t = boundArgs u := by
    unfold boundArgs
    rw [hqualified, htu.args]
  rw [bindWritten_named (htu.params?.trans hparams) (htu.dims.trans hdims),
    bindWritten_named hparams hdims, hname, hlocal, hargs]
  cases l.meaning? (lookupName u) u.localName class? with
  | none => exact .error (fun _ => by simp) (fun _ => by simp)
  | some entry =>
    apply SameOutcome.map
    apply attachArguments_same
    rfl

theorem bindAt_of_error {e : Error} (he : ∀ k, e ≠ .recursionLimit k)
    (hwritten : l.bindWritten (l.bindAt class? scope n) class? t = .error e) :
    l.bindAt class? scope (n + 1) t =
      match l.header? with
      | none => .error e
      | some h =>
        match h.resolve t scope l.maxScopeDepth with
        | .error e => .error e
        | .ok u => if u = t then .error e else l.bindWritten (l.bindAt class? scope n) class? u := by
  unfold bindAt
  rw [hwritten]
  cases e
  case recursionLimit k => exact absurd rfl (he k)
  all_goals rfl

/-- Types that differ in qualifiers, indirections and references are both bound, or neither is. -/
theorem bindAt_same (htu : t.SameParts u) :
    SameOutcome (l.bindAt class? scope n t) (l.bindAt class? scope n u) := by
  induction n generalizing t u with
  | zero => exact .limit _ _
  | succ n ih =>
    have hself : ∀ {v w : TypeExpr}, v.SameParts w →
        SameOutcome (l.bindWritten (l.bindAt class? scope n) class? v)
          (l.bindWritten (l.bindAt class? scope n) class? w) :=
      bindWritten_same fun v w => ih
    have hwritten := hself htu
    cases ht : l.bindWritten (l.bindAt class? scope n) class? t with
    | ok b =>
      rw [ht] at hwritten
      generalize hu : l.bindWritten (l.bindAt class? scope n) class? u = y at hwritten
      cases hwritten
      rw [bindAt_of_bindWritten ht, bindAt_of_bindWritten hu]
      exact .ok _ _
    | error e =>
      rw [ht] at hwritten
      generalize hu : l.bindWritten (l.bindAt class? scope n) class? u = y at hwritten
      cases hwritten with
      | limit k k' =>
        unfold bindAt
        rw [ht, hu]
        exact .limit k k'
      | error he he' =>
        rw [bindAt_of_error he ht, bindAt_of_error he' hu]
        cases l.header? with
        | none => exact .error he he'
        | some h =>
          dsimp only
          cases hr : h.resolve t scope l.maxScopeDepth with
          | ok r =>
            obtain ⟨r', hr', hparts, hsame⟩ := Header.exists_resolve htu hr
            rw [hr']
            dsimp only
            by_cases heq : r = t
            · rw [if_pos heq, if_pos (hsame.mp heq)]
              exact .error he he'
            · rw [if_neg heq, if_neg (mt hsame.mpr heq)]
              exact hself hparts
          | error e₁ =>
            rw [Header.resolve_error_same htu hr, Header.resolve_eq_error hr]
            exact .limit _ _

/-- What keeps an array from being bound, if it is no limit, keeps its element from it. -/
theorem exists_element_error {e : Error} (hparams : t.params? = none) (hdims : t.dims ≠ [])
    (he : l.bindAt class? scope (n + 1) t = .error e) (hlimit : ∀ k, e ≠ .recursionLimit k) :
    ∃ v e', v.SameParts { t with dims := [] } ∧ l.bindAt class? scope n v = .error e' ∧
      ∀ k, e' ≠ .recursionLimit k := by
  obtain ⟨v, f, hv, harray⟩ := l.exists_bindArray (l.bindAt class? scope n) t
  have hwritten : l.bindWritten (l.bindAt class? scope n) class? t =
      (l.bindAt class? scope n v).map f := by
    unfold bindWritten
    rw [if_neg (by simp [TypeExpr.isFunctionPointer, hparams]),
      if_pos (by simp [TypeExpr.isArray, hdims]), harray]
  cases hbound : l.bindAt class? scope n v with
  | ok b =>
    rw [hbound] at hwritten
    rw [bindAt_of_bindWritten hwritten] at he
    cases he
  | error e' =>
    refine ⟨v, e', hv, hbound, ?_⟩
    rintro k rfl
    rw [hbound] at hwritten
    unfold bindAt at he
    rw [hwritten] at he
    exact hlimit k (Except.error.inj he).symm

/-- When a type without template arguments cannot be bound, its name cannot be bound, unless a limit
is reported for an array. -/
theorem name_not_bound {e : Error} (he : l.bindType t class? scope = .error e)
    (hparams : t.params? = none) (hargs : t.args = [])
    (hlimit : t.dims = [] ∨ ∀ k, e ≠ .recursionLimit k) (b : BoundType) :
    l.bindType { name := t.name } class? scope ≠ .ok b := by
  unfold bindType at he ⊢
  by_cases hdims : t.dims = []
  · have hparts : t.SameParts { name := t.name } := ⟨rfl, hdims, hargs, hparams⟩
    have hsame : SameOutcome (l.bindAt class? scope (l.maxTemplateDepth + 1) t)
        (l.bindAt class? scope (l.maxTemplateDepth + 1) { name := t.name }) := bindAt_same hparts
    rw [he] at hsame
    exact hsame.not_ok b
  · obtain ⟨v, e', hv, hv', hlimit'⟩ :=
      exists_element_error hparams hdims he (hlimit.resolve_left hdims)
    have hparts : v.SameParts { name := t.name } :=
      ⟨hv.name, hv.dims, hv.args.trans hargs, hv.params?.trans hparams⟩
    have hsame : SameOutcome (l.bindAt class? scope l.maxTemplateDepth v)
        (l.bindAt class? scope l.maxTemplateDepth { name := t.name }) := bindAt_same hparts
    have hlimited := bindAt_limited l class? scope (Nat.le_succ l.maxTemplateDepth)
      { name := t.name }
    rw [hv'] at hsame
    generalize l.bindAt class? scope l.maxTemplateDepth { name := t.name } = x at hsame hlimited
    cases hsame with
    | limit k k' => exact absurd rfl (hlimit' k)
    | error _ he' =>
      intro hok
      rw [hok] at hlimited
      rcases hlimited.ok_or_limit with hsame | ⟨k, hk⟩
      · cases hsame
      · exact he' k (Except.error.inj hk)

end Lookup
end BindingModel
