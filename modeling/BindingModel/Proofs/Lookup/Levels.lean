import BindingModel.Lookup.Binding
import BindingModel.Proofs.Error
import BindingModel.Proofs.Header.Typedefs

/-! What a type is bound to, part by part. Fewer levels of nesting give the same, or a limit is
reported, and indirections do not decide whether a type can be bound. -/
namespace BindingModel.Lookup
open Api
variable {l : Lookup} {self self' : TypeExpr → Except Error BoundType} {class? : Option ClassId}
  {t u : TypeExpr} {b c : BoundType} {i n m : Nat}

/-! ### Parts of a binding -/

/-- The name by which a type is looked up: that of flags holds their arguments. -/
def lookupName (t : TypeExpr) : String :=
  if t.qualifiedName == "QFlags" && !t.args.isEmpty then t.instanceName else t.qualifiedName

/-- The arguments that are bound, which those of flags are not. -/
def boundArgs (t : TypeExpr) : List TypeExpr :=
  if t.qualifiedName == "QFlags" && !t.args.isEmpty then [] else t.args

theorem attachArguments_eq_ok_iff {args : List TypeExpr} :
    attachArguments self t i b args = .ok c ↔
      (args ≠ [] → b.entry.kind.takesArguments = true) ∧
        ∃ as, List.Forall₂ (fun arg a => self arg = .ok a) args as ∧
          c = { b with args := b.args ++ as } := by
  induction args generalizing i b with
  | nil =>
    have hsame : b = { b with args := b.args ++ [] } := by
      rw [List.append_nil]
      cases b
      rfl
    constructor
    · intro h
      obtain rfl := Except.ok.inj h
      exact ⟨fun hne => absurd rfl hne, [], .nil, hsame⟩
    · rintro ⟨-, as, has, rfl⟩
      cases has
      exact congrArg Except.ok hsame
  | cons arg args ih =>
    unfold attachArguments
    cases harg : self arg with
    | error e =>
      refine ⟨fun h => (by cases h), ?_⟩
      rintro ⟨-, as, has, -⟩
      cases has with
      | cons ha _ => cases harg.symm.trans ha
    | ok a =>
      unfold BoundType.addArgument
      by_cases htakes : b.entry.kind.takesArguments = true
      · simp only [htakes, if_true, ih]
        constructor
        · rintro ⟨-, as, has, rfl⟩
          exact ⟨fun _ => trivial, a :: as, .cons harg has, by simp⟩
        · rintro ⟨-, as, has, rfl⟩
          cases has with
          | cons ha has =>
            obtain rfl := Except.ok.inj (harg.symm.trans ha)
            exact ⟨fun _ => trivial, _, has, by simp⟩
      · simp [htakes]

/-- A type that is neither an array nor a function pointer is bound by the entry that its name
means, with its arguments. -/
theorem bindWritten_named (hparams : t.params? = none) (hdims : t.dims = []) :
    l.bindWritten self class? t =
      match l.meaning? (lookupName t) t.localName class? with
      | none => .error (.unresolved t.text (.unknownName (lookupName t)))
      | some entry =>
        (attachArguments self t 0
          { entry, isConst := t.isConst, isVolatile := t.isVolatile, pointers := t.pointers,
            ref := t.ref, written := t.text } (boundArgs t)).map (·.decided) := by
  have hpointer : t.isFunctionPointer = false := by simp [TypeExpr.isFunctionPointer, hparams]
  have harray : t.isArray = false := by simp [TypeExpr.isArray, hdims]
  unfold bindWritten
  rw [if_neg (by simp [hpointer]), if_neg (by simp [harray])]
  rfl

theorem bindWritten_eq_ok_iff (hparams : t.params? = none) (hdims : t.dims = []) :
    l.bindWritten self class? t = .ok c ↔
      ∃ entry, l.meaning? (lookupName t) t.localName class? = some entry ∧
        (boundArgs t ≠ [] → entry.kind.takesArguments = true) ∧
        ∃ as, List.Forall₂ (fun arg a => self arg = .ok a) (boundArgs t) as ∧
          c = BoundType.decided
            { entry, isConst := t.isConst, isVolatile := t.isVolatile, pointers := t.pointers,
              ref := t.ref, args := as, written := t.text } := by
  rw [bindWritten_named hparams hdims]
  cases l.meaning? (lookupName t) t.localName class? with
  | none => simp
  | some entry =>
    simp only [Option.some.injEq, exists_eq_left', Error.map_eq_ok_iff, attachArguments_eq_ok_iff]
    constructor
    · rintro ⟨_, ⟨htakes, as, has, rfl⟩, rfl⟩
      exact ⟨htakes, as, has, rfl⟩
    · rintro ⟨htakes, as, has, rfl⟩
      exact ⟨_, ⟨htakes, as, has, rfl⟩, rfl⟩

theorem bindWritten_of_meaning?_eq_none (hparams : t.params? = none) (hdims : t.dims = [])
    (hnone : l.meaning? (lookupName t) t.localName class? = none) :
    l.bindWritten self class? t = .error (.unresolved t.text (.unknownName (lookupName t))) := by
  rw [bindWritten_named hparams hdims, hnone]

/-- Indirections do not decide whether a name can be bound. -/
theorem exists_bindWritten_pointers (hparams : t.params? = none) (hdims : t.dims = []) (p : Nat)
    (h : l.bindWritten self class? t = .ok b) :
    ∃ c, l.bindWritten self class? { t with pointers := p } = .ok c := by
  obtain ⟨entry, hentry, htakes, as, has, -⟩ := (bindWritten_eq_ok_iff hparams hdims).mp h
  exact ⟨_, (bindWritten_eq_ok_iff (t := { t with pointers := p }) hparams hdims).mpr
    ⟨entry, hentry, htakes, as, has, rfl⟩⟩

/-! ### Levels of nesting -/

/-- The second outcome is the first, or it reports a limit in its place. -/
inductive Limited {α : Type} (x : Except Error α) : Except Error α → Prop
  | same : Limited x x
  | limit (k : Nat) : Limited x (.error (.recursionLimit k))

theorem Limited.ok_or_limit {α : Type} {a : α} {y : Except Error α} (h : Limited (.ok a) y) :
    y = .ok a ∨ ∃ k, y = .error (.recursionLimit k) := by
  cases h with
  | same => exact .inl rfl
  | limit k => exact .inr ⟨k, rfl⟩

theorem Limited.map {α β : Type} {x y : Except Error α} (h : Limited x y) (f : α → β) :
    Limited (x.map f) (y.map f) := by
  cases h with
  | same => exact .same
  | limit k => exact .limit k

section
variable (hself : ∀ t, Limited (self t) (self' t))
include hself

theorem attachArguments_limited {args : List TypeExpr} :
    Limited (attachArguments self t i b args) (attachArguments self' t i b args) := by
  induction args generalizing i b with
  | nil => exact .same
  | cons arg args ih =>
    have harg := hself arg
    unfold attachArguments
    generalize self arg = x, self' arg = y at harg
    cases harg with
    | limit k => exact .limit k
    | same =>
      cases x with
      | error e => exact .same
      | ok a =>
        dsimp only
        split
        · exact .same
        · exact ih

theorem bindArray_limited : Limited (l.bindArray self t) (l.bindArray self' t) := by
  unfold bindArray
  split
  · exact hself _
  · exact (hself { t with dims := [] }).map _

theorem bindWritten_limited :
    Limited (l.bindWritten self class? t) (l.bindWritten self' class? t) := by
  unfold bindWritten
  split
  · exact .same
  · split
    · exact bindArray_limited hself
    · dsimp only
      split
      · exact .same
      · exact (attachArguments_limited hself).map _

end

/-- With fewer levels left the outcome is the same, or a limit is reported. -/
theorem bindAt_limited (l : Lookup) (class? : Option ClassId) (scope : List String) (hnm : n ≤ m)
    (t : TypeExpr) : Limited (l.bindAt class? scope m t) (l.bindAt class? scope n t) := by
  induction n generalizing m t with
  | zero => exact .limit _
  | succ n ih =>
    obtain ⟨m, rfl⟩ : ∃ k, m = k + 1 := ⟨m - 1, by omega⟩
    have hself := fun t => ih (Nat.le_of_succ_le_succ hnm) t
    have hwritten : Limited (l.bindWritten (l.bindAt class? scope m) class? t)
        (l.bindWritten (l.bindAt class? scope n) class? t) := bindWritten_limited hself
    unfold bindAt
    generalize l.bindWritten (l.bindAt class? scope m) class? t = x,
      l.bindWritten (l.bindAt class? scope n) class? t = y at hwritten
    cases hwritten with
    | limit k => exact .limit k
    | same =>
      cases x with
      | ok b => exact .same
      | error e =>
        cases e
        case recursionLimit k => exact .same
        all_goals
          dsimp only
          split
          · exact .same
          · split
            · exact .same
            · split
              · exact .same
              · exact bindWritten_limited hself

theorem bindAt_unique {scope : List String} (hb : l.bindAt class? scope n t = .ok b)
    (hc : l.bindAt class? scope m t = .ok c) : b = c := by
  wlog hnm : n ≤ m generalizing n m b c with hwlog
  · exact (hwlog hc hb (Nat.le_of_not_le hnm)).symm
  · have hlimited := bindAt_limited l class? scope hnm t
    rw [hc, hb] at hlimited
    rcases hlimited.ok_or_limit with hsame | ⟨k, hlimit⟩
    · exact Except.ok.inj hsame
    · cases hlimit

/-! ### Typedefs -/

theorem bindAt_of_bindWritten {scope : List String}
    (hb : l.bindWritten (l.bindAt class? scope n) class? t = .ok b) :
    l.bindAt class? scope (n + 1) t = .ok b := by
  unfold bindAt
  rw [hb]

variable {h : Header} {scope : List String} (hheader : l.header? = some h)
include hheader

/-- A type is bound as it is written, or else as what typedefs make of it. -/
theorem bindAt_cases (hb : l.bindAt class? scope (n + 1) t = .ok b) :
    l.bindWritten (l.bindAt class? scope n) class? t = .ok b ∨
      ∃ e u, l.bindWritten (l.bindAt class? scope n) class? t = .error e ∧
        (∀ k, e ≠ .recursionLimit k) ∧ h.resolve t scope l.maxScopeDepth = .ok u ∧ u ≠ t ∧
        l.bindWritten (l.bindAt class? scope n) class? u = .ok b := by
  unfold bindAt at hb
  rw [hheader] at hb
  split at hb
  · next hwritten =>
    obtain rfl := Except.ok.inj hb
    exact .inl hwritten
  · cases hb
  · next e hlimit hwritten =>
    dsimp only at hb
    split at hb
    · cases hb
    · next u hu =>
      split at hb
      · cases hb
      · next hne => exact .inr ⟨e, u, hwritten, fun k hk => hlimit k hk, hu, hne, hb⟩

/-- A type that no typedef applies to is bound as it is written. -/
theorem bindAt_of_unaliased (hplain : h.Unaliased scope t.name) :
    l.bindAt class? scope (n + 1) t = .ok b ↔
      l.bindWritten (l.bindAt class? scope n) class? t = .ok b := by
  refine ⟨fun hb => ?_, bindAt_of_bindWritten⟩
  rcases bindAt_cases hheader hb with hwritten | ⟨_, u, -, -, hu, hne, -⟩
  · exact hwritten
  · exact absurd (Header.eq_of_resolve hplain hu) hne

/-- A type whose name means nothing is bound as what its typedefs make of it. -/
theorem bindAt_alias (hparams : t.params? = none) (hdims : t.dims = [])
    (hnone : l.meaning? (lookupName t) t.localName class? = none)
    (hu : h.resolve t scope l.maxScopeDepth = .ok u) (hne : u ≠ t) :
    l.bindAt class? scope (n + 1) t = l.bindWritten (l.bindAt class? scope n) class? u := by
  unfold bindAt
  rw [bindWritten_of_meaning?_eq_none hparams hdims hnone, hheader]
  dsimp only
  rw [hu]
  dsimp only
  rw [if_neg hne]

theorem exists_resolve_of_bindAt (hparams : t.params? = none) (hdims : t.dims = [])
    (hnone : l.meaning? (lookupName t) t.localName class? = none)
    (hb : l.bindAt class? scope (n + 1) t = .ok b) :
    ∃ u, h.resolve t scope l.maxScopeDepth = .ok u ∧ u ≠ t ∧
      l.bindWritten (l.bindAt class? scope n) class? u = .ok b := by
  rcases bindAt_cases hheader hb with hwritten | ⟨_, u, -, -, hu, hne, hbound⟩
  · rw [bindWritten_of_meaning?_eq_none hparams hdims hnone] at hwritten
    cases hwritten
  · exact ⟨u, hu, hne, hbound⟩

end BindingModel.Lookup
