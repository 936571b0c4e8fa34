import BindingModel.Header.Lookup
import Mathlib.Algebra.GroupWithZero.Nat
import Mathlib.Data.List.Basic

/-! Which typedef a name means inside a scope, and what a type is once its typedefs are expanded:
each of its parts follows by a rule of its own from the type and the targets of a chain of
typedefs. -/
namespace BindingModel
namespace TypeExpr

/-- What becomes of a type when a chain of typedefs is expanded that have these targets, in the
order of their expansion. -/
structure Composed (t : TypeExpr) (targets : List TypeExpr) (r : TypeExpr) : Prop where
  name : r.name = (targets.getLastD t).name
  isConst : r.isConst = true ↔ ∃ u ∈ t :: targets, u.isConst = true
  isVolatile : r.isVolatile = true ↔ ∃ u ∈ t :: targets, u.isVolatile = true
  pointers : r.pointers = ((t :: targets).map (·.pointers)).sum
  ref : r.ref = (((t :: targets).map (·.ref)).find? (· ≠ .none)).getD .none
  args : r.args = (((t :: targets).map (·.args)).find? (!·.isEmpty)).getD []
  dims : r.dims = (t :: targets).reverse.flatMap (·.dims)
  params? : r.params? = (targets.getLastD t).params?

/-- The type with more indirections and more dimensions, those of the type first. -/
def declared (t : TypeExpr) (p : Nat) (dims : List String) : TypeExpr :=
  { t with pointers := t.pointers + p, dims := t.dims ++ dims }

@[simp] theorem dims_declared (t : TypeExpr) (p : Nat) (dims : List String) :
    (t.declared p dims).dims = t.dims ++ dims := rfl

theorem Composed.nil (t : TypeExpr) : Composed t [] t where
  name := rfl
  isConst := by simp
  isVolatile := by simp
  pointers := by simp
  ref := by cases h : t.ref <;> simp [h]
  args := by cases h : t.args <;> simp [h]
  dims := by simp
  params? := rfl

end TypeExpr

namespace Header

/-- The scope at the path has the typedef as its first one of that name. -/
def Declares (h : Header) (path : List String) (name : String) (d : TypedefDecl) : Prop :=
  ∃ s, h.findScope? path = some s ∧ s.decls.findTypedef? name = some d

/-- The typedef that a name means inside a scope: its qualifier leads to it from the innermost
enclosing scope from which it leads to a typedef of that name at all. -/
inductive Visible (h : Header) (scope : List String) : List String → TypedefDecl → Prop
  | intro {qualifier outer : List String} {last : String} {d : TypedefDecl}
      (houter : outer <+: scope) (hd : h.Declares (outer ++ qualifier) last d)
      (hinner : ∀ inner, inner <+: scope → outer.length < inner.length →
        ∀ d', ¬ h.Declares (inner ++ qualifier) last d') :
      Visible h scope (qualifier ++ [last]) d

/-- No typedef applies to the name: it has none, or one that names itself. -/
def Unaliased (h : Header) (scope name : List String) : Prop :=
  ∀ d, h.Visible scope name d → d.target.name = name

/-- The typedefs lead from the first name to the last, each found under the name that its
predecessor stands for. -/
inductive Leads (h : Header) (scope : List String) :
    List String → List TypedefDecl → List String → Prop
  | nil (name : List String) : Leads h scope name [] name
  | cons {name last : List String} {d : TypedefDecl} {ds : List TypedefDecl}
      (hd : h.Visible scope name d) (hother : d.target.name ≠ name)
      (hds : Leads h scope d.target.name ds last) : Leads h scope name (d :: ds) last

/-- The type that a use of the typedef stands for. -/
def TypedefDecl.appliedTo (d : TypedefDecl) (t : TypeExpr) : TypeExpr :=
  { d.target.combine t with args := if t.args.isEmpty then d.target.args else t.args }

/-- The type with one typedef after the other expanded. -/
def expanded (t : TypeExpr) (ds : List TypedefDecl) : TypeExpr :=
  ds.foldl (fun t d => d.appliedTo t) t

variable {h : Header} {scope name : List String} {d : TypedefDecl} {ds : List TypedefDecl}
  {t r : TypeExpr} {limit n : Nat}

/-! ### The typedef of a name -/

theorem mem_enclosing {path : List String} : path ∈ enclosing scope ↔ path <+: scope := by
  induction scope generalizing path with
  | nil => simp [enclosing]
  | cons s scope ih =>
    rw [List.prefix_cons_iff]
    simp only [enclosing, List.mem_append, List.mem_map, List.mem_singleton, ih]
    constructor
    · rintro (⟨p, hp, rfl⟩ | rfl)
      · exact .inr ⟨p, rfl, hp⟩
      · exact .inl rfl
    · rintro (rfl | ⟨p, rfl, hp⟩)
      · exact .inr rfl
      · exact .inl ⟨p, hp, rfl⟩

/-- The longest path comes first. -/
theorem pairwise_enclosing (scope : List String) :
    (enclosing scope).Pairwise fun p q => q.length < p.length := by
  induction scope with
  | nil => exact List.pairwise_singleton _ _
  | cons s scope ih =>
    refine List.pairwise_append.mpr ⟨?_, List.pairwise_singleton _ _, ?_⟩
    · refine List.pairwise_map.mpr (ih.imp fun {p q} hpq => ?_)
      rw [List.length_cons, List.length_cons]
      exact Nat.succ_lt_succ hpq
    · intro p hp q hq
      obtain ⟨p, -, rfl⟩ := List.mem_map.mp hp
      obtain rfl := List.mem_singleton.mp hq
      exact Nat.succ_pos _

theorem enclosing_concat (scope : List String) (name : String) :
    enclosing (scope ++ [name]) = (scope ++ [name]) :: enclosing scope := by
  induction scope with
  | nil => rfl
  | cons s scope ih =>
    rw [List.cons_append, enclosing, ih]
    rfl

/-- What is found first is found on the longest path that has it. -/
theorem findSome?_enclosing_eq_some_iff {α : Type} {f : List String → Option α} {a : α} :
    (enclosing scope).findSome? f = some a ↔
      ∃ outer, outer <+: scope ∧ f outer = some a ∧
        ∀ inner, inner <+: scope → outer.length < inner.length → f inner = none := by
  rw [List.findSome?_eq_some_iff]
  have hordered := pairwise_enclosing scope
  constructor
  · rintro ⟨before, outer, after, hsplit, ha, hbefore⟩
    have hmem : outer ∈ enclosing scope := hsplit ▸ by simp
    refine ⟨outer, mem_enclosing.mp hmem, ha, fun inner hinner hlong => ?_⟩
    have hmem' := hsplit ▸ mem_enclosing.mpr hinner
    rw [hsplit, List.pairwise_append, List.pairwise_cons] at hordered
    rcases List.mem_append.mp hmem' with hin | hin
    · exact hbefore inner hin
    · rcases List.mem_cons.mp hin with rfl | hin
      · exact absurd hlong (Nat.lt_irrefl _)
      · exact absurd hlong (Nat.lt_asymm (hordered.2.1.1 inner hin))
  · rintro ⟨outer, houter, ha, hinner⟩
    obtain ⟨before, after, hsplit⟩ := List.append_of_mem (mem_enclosing.mpr houter)
    refine ⟨before, outer, after, hsplit, ha, fun inner hin => ?_⟩
    rw [hsplit, List.pairwise_append] at hordered
    have hlong := hordered.2.2 inner hin outer List.mem_cons_self
    have hmem : inner ∈ enclosing scope := hsplit ▸ List.mem_append_left _ hin
    exact hinner inner (mem_enclosing.mp hmem) hlong

theorem findTypedef?_eq_some_iff : h.findTypedef? name scope = some d ↔ h.Visible scope name d := by
  rcases List.eq_nil_or_concat name with rfl | ⟨qualifier, last, rfl⟩
  · refine ⟨fun hd => (by cases hd), fun hd => ?_⟩
    generalize hnil : ([] : List String) = name at hd
    cases hd
    exact absurd hnil (by simp)
  have hdeclares : ∀ path d', (h.findScope? (path ++ qualifier)).bind
      (·.decls.findTypedef? last) = some d' ↔ h.Declares (path ++ qualifier) last d' :=
    fun path d' => Option.bind_eq_some_iff
  unfold findTypedef?
  rw [List.concat_eq_append, List.getLast?_concat, List.dropLast_concat]
  dsimp only
  simp only [findSome?_enclosing_eq_some_iff, Option.eq_none_iff_forall_ne_some, ne_eq, hdeclares]
  constructor
  · rintro ⟨outer, houter, hd, hinner⟩
    exact .intro houter hd hinner
  · intro hd
    generalize hname : qualifier ++ [last] = name at hd
    obtain @⟨qualifier', outer, last', _, houter, hd, hinner⟩ := hd
    obtain ⟨rfl, hlast⟩ := List.append_inj' hname rfl
    obtain rfl := List.singleton_inj.mp hlast
    exact ⟨outer, houter, hd, hinner⟩

theorem Visible.unique {d' : TypedefDecl} (hd : h.Visible scope name d)
    (hd' : h.Visible scope name d') : d = d' :=
  Option.some.inj ((findTypedef?_eq_some_iff.mpr hd).symm.trans (findTypedef?_eq_some_iff.mpr hd'))

theorem Visible.declares (hd : h.Visible scope name d) : ∃ path last, h.Declares path last d := by
  cases hd with
  | intro _ hd _ => exact ⟨_, _, hd⟩

/-! ### One expansion -/

theorem expand?_eq_some_iff {u : TypeExpr} : h.expand? scope t = some u ↔
    ∃ d, h.Visible scope t.name d ∧ d.target.name ≠ t.name ∧ u = d.appliedTo t := by
  have happlied : ∀ d : TypedefDecl, (if t.args.isEmpty then d.target.combine t
      else { d.target.combine t with args := t.args }) = d.appliedTo t := by
    intro d
    unfold TypedefDecl.appliedTo
    split <;> rfl
  unfold expand?
  cases hfound : h.findTypedef? t.name scope with
  | none =>
    refine ⟨fun hu => (by cases hu), ?_⟩
    rintro ⟨d, hd, -, -⟩
    rw [findTypedef?_eq_some_iff.mpr hd] at hfound
    cases hfound
  | some d =>
    have hd := findTypedef?_eq_some_iff.mp hfound
    simp only [happlied]
    split
    · next hself =>
      refine ⟨fun hu => (by cases hu), ?_⟩
      rintro ⟨d', hd', hother, -⟩
      exact absurd (hd.unique hd' ▸ hself) hother
    · next hother =>
      refine ⟨fun hu => ⟨d, hd, hother, (Option.some.inj hu).symm⟩, ?_⟩
      rintro ⟨d', hd', -, hu⟩
      rw [hu, hd.unique hd']

theorem expand?_eq_none_iff : h.expand? scope t = none ↔ h.Unaliased scope t.name := by
  constructor
  · intro hnone d hd
    by_contra hother
    rw [expand?_eq_some_iff.mpr ⟨d, hd, hother, rfl⟩] at hnone
    cases hnone
  · intro hplain
    by_contra hsome
    obtain ⟨u, hu⟩ := Option.ne_none_iff_exists'.mp hsome
    obtain ⟨d, hd, hother, -⟩ := expand?_eq_some_iff.mp hu
    exact hother (hplain d hd)

/-! ### All expansions -/

theorem Leads.name_expanded {last : List String} (hds : h.Leads scope t.name ds last) :
    (expanded t ds).name = last := by
  generalize hname : t.name = name at hds
  induction hds generalizing t with
  | nil name => exact hname
  | cons _ _ _ ih => exact ih rfl

theorem Leads.unique {last last' : List String} {ds' : List TypedefDecl}
    (hds : h.Leads scope name ds last) (hlast : h.Unaliased scope last)
    (hds' : h.Leads scope name ds' last') (hlast' : h.Unaliased scope last') : ds = ds' := by
  induction hds generalizing ds' with
  | nil name =>
    cases hds' with
    | nil => rfl
    | cons hd hother _ => exact absurd (hlast _ hd) hother
  | cons hd hother _ ih =>
    cases hds' with
    | nil => exact absurd (hlast' _ hd) hother
    | cons hd' _ hds' =>
      obtain rfl := hd.unique hd'
      rw [ih hlast hds']

/-- A type is returned exactly where fewer typedefs than the limit lead to a name that none applies
to. -/
theorem expandAll_eq_ok_iff : h.expandAll scope limit n t = .ok r ↔
    ∃ ds, h.Leads scope t.name ds r.name ∧ h.Unaliased scope r.name ∧ ds.length < n ∧
      r = expanded t ds := by
  induction n generalizing t with
  | zero => exact ⟨fun hr => (by cases hr), fun ⟨_, _, _, hshort, _⟩ => (by cases hshort)⟩
  | succ n ih =>
    unfold expandAll
    cases hexpand : h.expand? scope t with
    | none =>
      have hplain := expand?_eq_none_iff.mp hexpand
      constructor
      · intro hr
        obtain rfl := Except.ok.inj hr
        exact ⟨[], .nil _, hplain, Nat.succ_pos n, rfl⟩
      · rintro ⟨ds, hds, -, -, rfl⟩
        cases ds with
        | nil => rfl
        | cons d ds =>
          cases hds with
          | cons hd hother _ => exact absurd (hplain d hd) hother
    | some u =>
      obtain ⟨d, hd, hother, rfl⟩ := expand?_eq_some_iff.mp hexpand
      refine ih.trans ⟨?_, ?_⟩
      · rintro ⟨ds, hds, hplain, hshort, rfl⟩
        exact ⟨d :: ds, .cons hd hother hds, hplain, Nat.succ_lt_succ hshort, rfl⟩
      · rintro ⟨ds, hds, hplain, hshort, rfl⟩
        cases ds with
        | nil => exact absurd (hplain d hd) hother
        | cons d' ds =>
          cases hds with
          | cons hd' _ hds =>
            obtain rfl := hd.unique hd'
            exact ⟨ds, hds, hplain, Nat.lt_of_succ_lt_succ hshort, rfl⟩

theorem expandAll_eq_error {t : TypeExpr} (hok : ∀ r, h.expandAll scope limit n t ≠ .ok r) :
    h.expandAll scope limit n t = .error (.recursionLimit limit) := by
  induction n generalizing t with
  | zero => rfl
  | succ n ih =>
    unfold expandAll at hok ⊢
    split
    · next hnone =>
      rw [hnone] at hok
      exact absurd rfl (hok t)
    · next u hu =>
      rw [hu] at hok
      exact ih hok

theorem resolve_unique {r' : TypeExpr} {limit' : Nat} (hr : h.resolve t scope limit = .ok r)
    (hr' : h.resolve t scope limit' = .ok r') : r = r' := by
  obtain ⟨ds, hds, hplain, -, rfl⟩ := expandAll_eq_ok_iff.mp hr
  obtain ⟨ds', hds', hplain', -, rfl⟩ := expandAll_eq_ok_iff.mp hr'
  rw [hds.unique hplain hds' hplain']

theorem unaliased_of_resolve (hr : h.resolve t scope limit = .ok r) :
    h.Unaliased scope r.name := by
  obtain ⟨_, _, hplain, -⟩ := expandAll_eq_ok_iff.mp hr
  exact hplain

theorem eq_of_resolve (hplain : h.Unaliased scope t.name) (hr : h.resolve t scope limit = .ok r) :
    r = t := by
  obtain ⟨ds, hds, -, -, rfl⟩ := expandAll_eq_ok_iff.mp hr
  cases hds with
  | nil => rfl
  | cons hd hother _ => exact absurd (hplain _ hd) hother

/-- A type that typedefs change gets another name. -/
theorem name_ne_of_resolve (hr : h.resolve t scope limit = .ok r) (hne : r ≠ t) :
    r.name ≠ t.name := by
  intro hsame
  have hplain := unaliased_of_resolve hr
  exact hne (eq_of_resolve (hsame ▸ hplain) hr)

/-! ### Declarators

What a use adds to a type, it adds to what the type stands for. -/

theorem appliedTo_declared (d : TypedefDecl) (t : TypeExpr) (p : Nat) (dims : List String) :
    d.appliedTo (t.declared p dims) = (d.appliedTo t).declared p dims := by
  unfold TypedefDecl.appliedTo TypeExpr.combine TypeExpr.declared
  simp only [Nat.add_assoc, List.append_assoc]

theorem expanded_declared (t : TypeExpr) (ds : List TypedefDecl) (p : Nat) (dims : List String) :
    expanded (t.declared p dims) ds = (expanded t ds).declared p dims := by
  induction ds generalizing t with
  | nil => rfl
  | cons d ds ih =>
    unfold expanded at ih ⊢
    rw [List.foldl_cons, List.foldl_cons, appliedTo_declared, ih]

theorem resolve_declared_iff {p : Nat} {dims : List String} :
    h.resolve (t.declared p dims) scope limit = .ok r ↔
      ∃ u, h.resolve t scope limit = .ok u ∧ r = u.declared p dims := by
  constructor
  · intro hr
    obtain ⟨ds, hds, hplain, hshort, rfl⟩ := expandAll_eq_ok_iff.mp hr
    rw [expanded_declared] at hds hplain ⊢
    exact ⟨expanded t ds, expandAll_eq_ok_iff.mpr ⟨ds, hds, hplain, hshort, rfl⟩, rfl⟩
  · rintro ⟨u, hu, rfl⟩
    obtain ⟨ds, hds, hplain, hshort, rfl⟩ := expandAll_eq_ok_iff.mp hu
    exact expandAll_eq_ok_iff.mpr ⟨ds, hds, hplain, hshort, (expanded_declared t ds p dims).symm⟩

end Header

namespace TypeExpr

/-- What is taken from the last target comes from the first one if there is no other. -/
theorem getLastD_appliedTo {β : Type} (f : TypeExpr → β) {d : Header.TypedefDecl} {t : TypeExpr}
    (h : f (d.appliedTo t) = f d.target) (targets : List TypeExpr) :
    f (targets.getLastD (d.appliedTo t)) = f ((d.target :: targets).getLastD t) := by
  cases targets with
  | nil => exact h
  | cons u targets => rfl

/-- The target of the first typedef comes between the type and the rest of the chain. -/
theorem Composed.cons {d : Header.TypedefDecl} {t r : TypeExpr} {targets : List TypeExpr}
    (h : Composed (d.appliedTo t) targets r) : Composed t (d.target :: targets) r where
  name := h.name.trans (getLastD_appliedTo (·.name) rfl targets)
  isConst := by
    rw [h.isConst]
    simp [Header.TypedefDecl.appliedTo, combine, or_assoc, or_left_comm]
  isVolatile := by
    rw [h.isVolatile]
    simp [Header.TypedefDecl.appliedTo, combine, or_assoc, or_left_comm]
  pointers := by
    rw [h.pointers]
    simp only [Header.TypedefDecl.appliedTo, combine, List.map_cons, List.sum_cons]
    omega
  ref := by
    rw [h.ref]
    simp only [Header.TypedefDecl.appliedTo, combine, List.map_cons, List.find?_cons]
    cases t.ref <;> simp
  args := by
    rw [h.args]
    simp only [Header.TypedefDecl.appliedTo, combine, List.map_cons, List.find?_cons]
    cases t.args <;> simp
  dims := by
    rw [h.dims]
    simp [Header.TypedefDecl.appliedTo, combine]
  params? := h.params?.trans (getLastD_appliedTo (·.params?) rfl targets)

theorem composed_expanded (t : TypeExpr) (ds : List Header.TypedefDecl) :
    Composed t (ds.map (·.target)) (Header.expanded t ds) := by
  induction ds generalizing t with
  | nil => exact .nil t
  | cons d ds ih => exact (ih (d.appliedTo t)).cons

end TypeExpr

namespace Header

/-- A type whose typedefs are expanded is composed along a chain of typedefs, ends at a name that
none applies to, and stays as it is when it is resolved again. -/
theorem resolve_composed {h : Header} {t r : TypeExpr} {scope : List String} {limit : Nat}
    (hr : h.resolve t scope limit = .ok r) :
    (∃ ds, h.Leads scope t.name ds r.name ∧ t.Composed (ds.map (·.target)) r) ∧
      h.Unaliased scope r.name ∧ h.resolve r scope limit = .ok r := by
  obtain ⟨ds, hds, hplain, hshort, rfl⟩ := expandAll_eq_ok_iff.mp hr
  refine ⟨⟨ds, hds, t.composed_expanded ds⟩, hplain, ?_⟩
  exact expandAll_eq_ok_iff.mpr ⟨[], .nil _, hplain, Nat.zero_lt_of_lt hshort, rfl⟩

/-- `Length` is declared twice; inside the class `Widget` it means the one of `Gui`. -/
def widgetHeader : Header where
  global := {
    decls := {
      typedefs := [
        { name := "Real", target := { name := ["double"] } },
        { name := "Length", target := { name := ["int"] } }] }
    namespaces := [{
      decls := {
        name := "Gui"
        typedefs := [
          { name := "Length", target := { name := ["Real"], isVolatile := true, pointers := 1 } }] }
      classes := [{
        decls := {
          name := "Widget"
          typedefs := [{ name := "Sides", target := { name := ["Length"], dims := ["4"] } }] } }] }] }

/-- `const Sides&` stands for `const volatile double*&[4]`. -/
theorem resolve_composed_sides :
    let sides : TypeExpr := { name := ["Sides"], isConst := true, ref := .lvalue }
    let r : TypeExpr :=
      { name := ["double"], isConst := true, isVolatile := true, pointers := 1, ref := .lvalue,
        dims := ["4"] }
    widgetHeader.resolve sides ["Gui", "Widget"] 64 = .ok r ∧
      (∃ ds, widgetHeader.Leads ["Gui", "Widget"] ["Sides"] ds ["double"] ∧
        sides.Composed (ds.map (·.target)) r) ∧
      widgetHeader.Unaliased ["Gui", "Widget"] ["double"] ∧
      widgetHeader.resolve r ["Gui", "Widget"] 64 = .ok r := by
  intro sides r
  have hr : widgetHeader.resolve sides ["Gui", "Widget"] 64 = .ok r := by rfl
  exact ⟨hr, resolve_composed hr⟩

end Header
end BindingModel
