import BindingModel.Proofs.Lookup.Spelling
import BindingModel.Proofs.Text.Segments

/-! What a name means inside a class: the scopes of the class hide those of its bases, an inner
scope hides an outer one, and what is global comes after all of them. -/
namespace BindingModel
open Api

/-! ### The rules of scope -/

/-- The type entry of the name in the scope at a path. The global scope is none of these. -/
def Database.Holds (db : Database) (path : List String) (name : String) (e : Entry) : Prop :=
  Text.qualified path ≠ "" ∧ db.findType? (Text.qualified path ++ "::" ++ name) = some e

/-- The type entry of the name in the innermost of the scopes at a path and around it that have
one. -/
def Database.Innermost (db : Database) (path : List String) (name : String) (e : Entry) : Prop :=
  ∃ outer, outer <+: path ∧ db.Holds outer name e ∧
    ∀ inner, inner <+: path → outer.length < inner.length → ∀ e', ¬ db.Holds inner name e'

namespace Lookup

/-- The scopes around the class, and its own, are no more than are searched. -/
def Reaches (l : Lookup) (c : ClassId) : Prop :=
  ∃ path, Text.Segmented path (l.store.get c).qualifiedName ∧ path.length ≤ l.maxScopeDepth

/-- What the name means in the scope of the class or in those around it. -/
def InClass (l : Lookup) (c : ClassId) (name : String) (e : Entry) : Prop :=
  ∃ path, Text.Segmented path (l.store.get c).qualifiedName ∧ l.db.Innermost path name e

/-- What the name means in the class that `base` means inside `c`. -/
def InBase (l : Lookup) (c : ClassId) (base name : String) (e : Entry) : Prop :=
  ∃ b, l.findClass? base (some c) = some b ∧ l.InClass b name e

/-- Neither the scopes of the class nor those of its bases have the name. -/
def Unscoped (l : Lookup) (c : ClassId) (name : String) : Prop :=
  (∀ e, ¬ l.InClass c name e) ∧
    ∀ base ∈ (l.store.get c).baseNames, ∀ e, ¬ l.InBase c base name e

/-- What a name means inside a class; `localName` is its last segment. -/
inductive Denotes (l : Lookup) (c : ClassId) (name localName : String) : Entry → Prop
  | own {e : Entry} (he : l.InClass c name e) : Denotes l c name localName e
  | base {before after : List String} {base : String} {e : Entry}
      (hown : ∀ e', ¬ l.InClass c name e')
      (hbases : (l.store.get c).baseNames = before ++ base :: after)
      (hbefore : ∀ earlier ∈ before, ∀ e', ¬ l.InBase c earlier name e')
      (he : l.InBase c base name e) : Denotes l c name localName e
  | global {e : Entry} (hscopes : l.Unscoped c name) (he : l.db.findType? name = some e) :
      Denotes l c name localName e
  | flags {e : Entry} (hscopes : l.Unscoped c name) (hglobal : l.db.findType? name = none)
      (he : l.db.findFlags? name = some e) : Denotes l c name localName e
  | container {e : Entry} (hscopes : l.Unscoped c name) (hglobal : l.db.findType? name = none)
      (hflags : l.db.findFlags? name = none) (he : l.db.findContainer? localName = some e) :
      Denotes l c name localName e
  | parameter {e : Entry} (hscopes : l.Unscoped c name) (hglobal : l.db.findType? name = none)
      (hflags : l.db.findFlags? name = none) (hcontainer : l.db.findContainer? localName = none)
      (he : (l.store.get c).templateParams.find? (·.name == name) = some e) :
      Denotes l c name localName e

variable {l : Lookup} {c : ClassId} {t : TypeExpr} {b : BoundType} {e : Entry}
  {name localName : String} {path scope : List String} {n : Nat}

/-! ### The search for the innermost scope -/

/-- The scopes that are searched are those at the paths around the name. -/
theorem findSome?_scopes {α : Type} {scope : String} (hpath : Text.Segmented path scope)
    (hn : path.length ≤ n) (f : String → Option α) :
    ((scopes n scope).takeWhile (· ≠ "")).findSome? f = (Header.enclosing path).findSome? fun p =>
      if Text.qualified p = "" then none else f (Text.qualified p) := by
  induction hpath generalizing n with
  | @one s hs =>
    obtain ⟨n, rfl⟩ : ∃ k, n = k + 1 := Nat.exists_eq_add_one.mpr hn
    have hqualified : Text.qualified [s] = s := rfl
    have hglobal : Text.qualified [] = "" := rfl
    have hpaths : Header.enclosing [s] = [[s], []] := rfl
    rw [scopes, Text.cutLast?_eq_none_iff.mpr hs]
    simp only [hpaths, List.findSome?_cons, List.findSome?_nil, hqualified, hglobal, if_true]
    by_cases hempty : s = ""
    · simp [hempty]
    · simp only [hempty, if_false]
      cases hf : f s <;> simp [hempty, hf]
  | @inside segs outer s houter hs ih =>
    rw [List.length_append, List.length_singleton] at hn
    obtain ⟨n, rfl⟩ : ∃ k, n = k + 1 := ⟨n - 1, by omega⟩
    have hne : outer ++ "::" ++ s ≠ "" := by simp
    rw [scopes, Text.cutLast?_inside outer hs, Header.enclosing_concat]
    simp only [String.ofList_toList]
    rw [List.takeWhile_cons_of_pos (by simp), List.findSome?_cons, List.findSome?_cons,
      ih (by omega), (Text.Segmented.inside houter hs).qualified_eq, if_neg hne]

theorem findInScopes?_eq_some_iff (hc : l.Reaches c) :
    l.findInScopes? name (l.store.get c).qualifiedName = some e ↔ l.InClass c name e := by
  obtain ⟨path, hpath, hdepth⟩ := hc
  have hholds : ∀ p e', (if Text.qualified p = "" then none
      else l.db.findType? (Text.qualified p ++ "::" ++ name)) = some e' ↔ l.db.Holds p name e' := by
    intro p e'
    unfold Database.Holds
    by_cases hempty : Text.qualified p = ""
    · simp [hempty]
    · simp [hempty]
  unfold findInScopes?
  rw [findSome?_scopes hpath hdepth, Header.findSome?_enclosing_eq_some_iff]
  simp only [Option.eq_none_iff_forall_ne_some, ne_eq, hholds]
  constructor
  · intro he
    exact ⟨path, hpath, he⟩
  · rintro ⟨path', hpath', he⟩
    exact hpath.unique hpath' ▸ he

/-! ### The order of the rules -/

section
variable (hc : l.Reaches c)
  (hbases : ∀ base ∈ (l.store.get c).baseNames, ∀ b, l.findClass? base (some c) = some b →
    l.Reaches b)
include hbases

theorem findInBase?_eq_some_iff {base : String} (hbase : base ∈ (l.store.get c).baseNames) :
    ((l.findClass? base (some c)).bind fun b =>
      l.findInScopes? name (l.store.get b).qualifiedName) = some e ↔ l.InBase c base name e := by
  rw [Option.bind_eq_some_iff]
  constructor
  · rintro ⟨b, hb, he⟩
    exact ⟨b, hb, (findInScopes?_eq_some_iff (hbases base hbase b hb)).mp he⟩
  · rintro ⟨b, hb, he⟩
    exact ⟨b, hb, (findInScopes?_eq_some_iff (hbases base hbase b hb)).mpr he⟩

include hc

theorem findInClass?_eq_none_iff : l.findInClass? name c = none ↔ l.Unscoped c name := by
  unfold findInClass? Unscoped
  rw [Option.or_eq_none_iff, List.findSome?_eq_none_iff]
  simp only [Option.eq_none_iff_forall_ne_some, ne_eq, findInScopes?_eq_some_iff hc]
  refine and_congr_right fun _ => forall₂_congr fun base hmem => forall_congr' fun e => ?_
  rw [findInBase?_eq_some_iff hbases hmem]

theorem findInClass?_eq_some_iff : l.findInClass? name c = some e ↔ l.InClass c name e ∨
    (∀ e', ¬ l.InClass c name e') ∧ ∃ before base after,
      (l.store.get c).baseNames = before ++ base :: after ∧ l.InBase c base name e ∧
        ∀ earlier ∈ before, ∀ e', ¬ l.InBase c earlier name e' := by
  have hbase : ∀ base ∈ (l.store.get c).baseNames, ∀ e', _ ↔ l.InBase c base name e' :=
    fun base hmem e' => findInBase?_eq_some_iff hbases hmem
  unfold findInClass?
  simp only [Option.or_eq_some_iff, Option.eq_none_iff_forall_ne_some, ne_eq,
    findInScopes?_eq_some_iff hc, List.findSome?_eq_some_iff]
  refine or_congr_right (and_congr_right fun _ => ?_)
  constructor
  · rintro ⟨before, base, after, hsplit, he, hbefore⟩
    refine ⟨before, base, after, hsplit, (hbase base (by simp [hsplit]) e).mp he, ?_⟩
    intro earlier hmem e' he'
    exact hbefore earlier hmem e' ((hbase earlier (by simp [hsplit, hmem]) e').mpr he')
  · rintro ⟨before, base, after, hsplit, he, hbefore⟩
    refine ⟨before, base, after, hsplit, (hbase base (by simp [hsplit]) e).mpr he, ?_⟩
    intro earlier hmem e' he'
    exact hbefore earlier hmem e' ((hbase earlier (by simp [hsplit, hmem]) e').mp he')

theorem meaning?_eq_some_iff :
    l.meaning? name localName (some c) = some e ↔ l.Denotes c name localName e := by
  unfold meaning?
  simp only [Option.bind_some, Option.or_eq_some_iff, findInClass?_eq_some_iff hc hbases,
    findInClass?_eq_none_iff hc hbases]
  constructor
  · rintro ((he | ⟨hown, before, base, after, hsplit, he, hbefore⟩) |
      ⟨hscopes, he | ⟨hglobal, he | ⟨hflags, he | ⟨hcontainer, he⟩⟩⟩⟩)
    · exact .own he
    · exact .base hown hsplit hbefore he
    · exact .global hscopes he
    · exact .flags hscopes hglobal he
    · exact .container hscopes hglobal hflags he
    · exact .parameter hscopes hglobal hflags hcontainer he
  · intro he
    cases he with
    | own he => exact .inl (.inl he)
    | base hown hsplit hbefore he => exact .inl (.inr ⟨hown, _, _, _, hsplit, he, hbefore⟩)
    | global hscopes he => exact .inr ⟨hscopes, .inl he⟩
    | flags hscopes hglobal he => exact .inr ⟨hscopes, .inr ⟨hglobal, .inl he⟩⟩
    | container hscopes hglobal hflags he =>
      exact .inr ⟨hscopes, .inr ⟨hglobal, .inr ⟨hflags, .inl he⟩⟩⟩
    | parameter hscopes hglobal hflags hcontainer he =>
      exact .inr ⟨hscopes, .inr ⟨hglobal, .inr ⟨hflags, .inr ⟨hcontainer, he⟩⟩⟩⟩

end

/-! ### Binding a name -/

theorem bindType_of_meaning? {class? : Option ClassId} (hargs : t.args = []) (hdims : t.dims = [])
    (hparams : t.params? = none)
    (he : l.meaning? t.qualifiedName t.localName class? = some e) :
    l.bindType t class? scope = .ok (BoundType.decided
      { entry := e, isConst := t.isConst, isVolatile := t.isVolatile, pointers := t.pointers,
        ref := t.ref, written := t.text }) := by
  obtain ⟨hname, hbound⟩ := lookupName_of_ne (t := t) fun hne => absurd hargs hne
  rw [hargs] at hbound
  refine bindAt_of_bindWritten ((bindWritten_eq_ok_iff hparams hdims).mpr ?_)
  exact ⟨e, hname ▸ he, by simp [hbound], [], hbound ▸ .nil, rfl⟩

/-- A type whose name means nothing is bound if typedefs make of it a type that is bound. -/
theorem bindType_of_meaning?_eq_none (hargs : t.args = []) (hdims : t.dims = [])
    (hparams : t.params? = none)
    (hnone : l.meaning? t.qualifiedName t.localName (some c) = none) :
    l.bindType t (some c) scope = .ok b ↔ ∃ h u, l.header? = some h ∧
      h.resolve t scope l.maxScopeDepth = .ok u ∧ u ≠ t ∧ l.bindType u (some c) scope = .ok b := by
  obtain ⟨hname, -⟩ := lookupName_of_ne (t := t) fun hne => absurd hargs hne
  rw [← hname] at hnone
  unfold bindType
  cases hheader : l.header? with
  | none =>
    unfold bindAt
    rw [bindWritten_of_meaning?_eq_none hparams hdims hnone, hheader]
    simp
  | some h =>
    constructor
    · intro hb
      obtain ⟨u, hu, hne, hbound⟩ := exists_resolve_of_bindAt hheader hparams hdims hnone hb
      exact ⟨h, u, rfl, hu, hne, bindAt_of_bindWritten hbound⟩
    · rintro ⟨_, u, hsame, hu, hne, hb⟩
      obtain rfl := Option.some.inj hsame
      rw [bindAt_alias hheader hparams hdims hnone hu hne]
      exact (bindAt_of_unaliased hheader (Header.unaliased_of_resolve hu)).mp hb

/-- Inside a class, a name without template arguments means the entry in the innermost of the scopes
of the class that has one, or else the same for the first base that has one, or else the global type,
the flags, the container or the template parameter of that name, in this order. It cannot be bound
exactly if there is none of these and its typedefs lead to nothing that can be bound. -/
theorem names_innermost_first {l : Lookup} {c : ClassId} {t : TypeExpr} (scope : List String)
    (hc : l.Reaches c)
    (hbases : ∀ base ∈ (l.store.get c).baseNames, ∀ b, l.findClass? base (some c) = some b →
      l.Reaches b)
    (hargs : t.args = []) (hdims : t.dims = []) (hparams : t.params? = none) :
    (∀ e, l.Denotes c t.qualifiedName t.localName e →
      l.bindType t (some c) scope = .ok (BoundType.decided
        { entry := e, isConst := t.isConst, isVolatile := t.isVolatile, pointers := t.pointers,
          ref := t.ref, written := t.text })) ∧
    ((∃ error, l.bindType t (some c) scope = .error error) ↔
      (∀ e, ¬ l.Denotes c t.qualifiedName t.localName e) ∧
        ∀ h u, l.header? = some h → h.resolve t scope l.maxScopeDepth = .ok u → u ≠ t →
          ∃ error, l.bindType u (some c) scope = .error error) := by
  have hmeaning : ∀ e, l.meaning? t.qualifiedName t.localName (some c) = some e ↔
      l.Denotes c t.qualifiedName t.localName e := fun e => meaning?_eq_some_iff hc hbases
  refine ⟨fun e he => bindType_of_meaning? hargs hdims hparams ((hmeaning e).mpr he), ?_⟩
  simp only [Error.exists_error_iff]
  constructor
  · intro hfail
    have hnone : ∀ e, ¬ l.Denotes c t.qualifiedName t.localName e := fun e he =>
      hfail _ (bindType_of_meaning? hargs hdims hparams ((hmeaning e).mpr he))
    refine ⟨hnone, fun h u hheader hu hne b hb => hfail b ?_⟩
    simp only [← hmeaning, ← ne_eq, ← Option.eq_none_iff_forall_ne_some] at hnone
    exact (bindType_of_meaning?_eq_none hargs hdims hparams hnone).mpr ⟨h, u, hheader, hu, hne, hb⟩
  · rintro ⟨hnone, halias⟩ b hb
    simp only [← hmeaning, ← ne_eq, ← Option.eq_none_iff_forall_ne_some] at hnone
    obtain ⟨h, u, hheader, hu, hne, hb⟩ :=
      (bindType_of_meaning?_eq_none hargs hdims hparams hnone).mp hb
    exact halias h u hheader hu hne b hb

/-- `Gui::Panel::Widget` with the base `Core::Base`. Both have a `Color` in a scope around them,
only the second one a `Shape`, and there are global ones. -/
def widgetLookup : Lookup where
  db := {
    entries := [⟨some 0, "Color", .primitive⟩, ⟨some 1, "Core::Color", .primitive⟩,
      ⟨some 2, "Gui::Color", .primitive⟩, ⟨some 3, "Shape", .primitive⟩,
      ⟨some 4, "Core::Shape", .primitive⟩] }
  store := {
    classes := #[
      { entry := ⟨some 5, "Gui::Panel::Widget", .complex .value {}⟩, baseNames := ["Core::Base"] },
      { entry := ⟨some 6, "Core::Base", .complex .value {}⟩ }] }
  registry? := some { members := [0, 1] }

theorem names_innermost_first_widget :
    let color : TypeExpr := .ofName "Color"
    let shape : TypeExpr := { name := ["Shape"], pointers := 1 }
    widgetLookup.Reaches 0 ∧
      (∀ base ∈ (widgetLookup.store.get 0).baseNames, ∀ b,
        widgetLookup.findClass? base (some 0) = some b → widgetLookup.Reaches b) ∧
      color.args = [] ∧ color.dims = [] ∧ color.params? = none ∧
      shape.args = [] ∧ shape.dims = [] ∧ shape.params? = none ∧
      (∃ b, widgetLookup.bindType color (some 0) [] = .ok b ∧ b.entry.name = "Gui::Color") ∧
      ∃ b, widgetLookup.bindType shape (some 0) [] = .ok b ∧ b.entry.name = "Core::Shape" := by
  intro color shape
  have hcore : Text.Segmented ["Core", "Base"] ("Core" ++ "::" ++ "Base") :=
    .inside (.one (by decide)) (by decide)
  have hwidget : Text.Segmented ["Gui", "Panel", "Widget"]
      ("Gui" ++ "::" ++ "Panel" ++ "::" ++ "Widget") :=
    .inside (.inside (.one (by decide)) (by decide)) (by decide)
  have hclass : widgetLookup.Reaches 0 := ⟨_, hwidget, by decide⟩
  have hbases : ∀ base ∈ (widgetLookup.store.get 0).baseNames, ∀ b,
      widgetLookup.findClass? base (some 0) = some b → widgetLookup.Reaches b := by
    intro base hmem b hb
    obtain rfl := List.mem_singleton.mp hmem
    have hfound : widgetLookup.findClass? "Core::Base" (some 0) = some 1 := by decide +kernel
    obtain rfl := Option.some.inj (hfound.symm.trans hb)
    exact ⟨_, hcore, by decide⟩
  have hcolor : widgetLookup.Denotes 0 "Color" "Color" ⟨some 2, "Gui::Color", .primitive⟩ :=
    (meaning?_eq_some_iff hclass hbases).mp rfl
  have hshape : widgetLookup.Denotes 0 "Shape" "Shape" ⟨some 4, "Core::Shape", .primitive⟩ :=
    (meaning?_eq_some_iff hclass hbases).mp rfl
  obtain ⟨hcolors, -⟩ := names_innermost_first (t := color) [] hclass hbases rfl rfl rfl
  obtain ⟨hshapes, -⟩ := names_innermost_first (t := shape) [] hclass hbases rfl rfl rfl
  exact ⟨hclass, hbases, rfl, rfl, rfl, rfl, rfl, rfl, ⟨_, hcolors _ hcolor, rfl⟩,
    _, hshapes _ hshape, rfl⟩

end Lookup
end BindingModel
