import BindingModel.Proofs.Header.Typedefs
import Mathlib.Data.Set.Finite.Lattice
import Mathlib.Logic.Relation
import Mathlib.Order.Preorder.Finite

/-! How many expansions a type needs: a number of them ends the expansion, or aliases loop. The
limit has to exceed that number. -/
namespace BindingModel.Header
variable {h : Header} {scope name other : List String} {ds : List TypedefDecl} {k n limit : Nat}

/-- Exactly `k` expansions lead from the name to one that no typedef applies to. -/
def EndsAfter (h : Header) (scope name : List String) (k : Nat) : Prop :=
  ∃ ds last, h.Leads scope name ds last ∧ h.Unaliased scope last ∧ ds.length = k

/-- A typedef replaces the first name by the other one. -/
def Aliases (h : Header) (scope name other : List String) : Prop :=
  ∃ d, h.Visible scope name d ∧ d.target.name = other ∧ other ≠ name

/-- The expansion of the name reaches one to which aliases lead back. -/
def Loops (h : Header) (scope name : List String) : Prop :=
  ∃ other, Relation.ReflTransGen (h.Aliases scope) name other ∧
    Relation.TransGen (h.Aliases scope) other other

/-! ### The number of expansions -/

theorem EndsAfter.unique {k' : Nat} (hk : h.EndsAfter scope name k)
    (hk' : h.EndsAfter scope name k') : k = k' := by
  obtain ⟨ds, last, hds, hlast, rfl⟩ := hk
  obtain ⟨ds', last', hds', hlast', rfl⟩ := hk'
  rw [hds.unique hlast hds' hlast']

/-- An alias is one expansion less away from the end. -/
theorem EndsAfter.of_aliases (hk : h.EndsAfter scope name k) (halias : h.Aliases scope name other) :
    ∃ j < k, h.EndsAfter scope other j := by
  obtain ⟨ds, last, hds, hlast, rfl⟩ := hk
  obtain ⟨d, hd, rfl, hother⟩ := halias
  cases hds with
  | nil => exact absurd (hlast d hd) hother
  | cons hd' _ hds =>
    obtain rfl := hd.unique hd'
    exact ⟨_, Nat.lt_succ_self _, _, last, hds, hlast, rfl⟩

theorem EndsAfter.of_transGen (hk : h.EndsAfter scope name k)
    (hpath : Relation.TransGen (h.Aliases scope) name other) :
    ∃ j < k, h.EndsAfter scope other j := by
  induction hpath with
  | single halias => exact hk.of_aliases halias
  | tail _ halias ih =>
    obtain ⟨i, hi, hend⟩ := ih
    obtain ⟨j, hj, hend⟩ := hend.of_aliases halias
    exact ⟨j, hj.trans hi, hend⟩

theorem Loops.not_endsAfter (hloops : h.Loops scope name) : ¬ h.EndsAfter scope name k := by
  intro hk
  obtain ⟨other, hpath, hback⟩ := hloops
  obtain ⟨i, hi⟩ : ∃ i, h.EndsAfter scope other i := by
    rcases Relation.reflTransGen_iff_eq_or_transGen.mp hpath with rfl | hpath
    · exact ⟨k, hk⟩
    · obtain ⟨i, -, hi⟩ := hk.of_transGen hpath
      exact ⟨i, hi⟩
  obtain ⟨j, hj, hend⟩ := hi.of_transGen hback
  exact absurd (hend.unique hi) hj.ne

/-! ### Finitely many names -/

/-- The scopes declared directly inside a scope. -/
def Scope.children : Scope → List Scope
  | ofNamespace n => n.namespaces.map ofNamespace ++ n.classes.map ofClass
  | ofClass c => c.classes.map ofClass

theorem Scope.findClass?_mem_children {s : Scope} {name : String} {c : ClassDecl}
    (hc : s.findClass? name = some c) : ofClass c ∈ s.children := by
  have hmem : c ∈ s.classes := List.mem_of_find?_eq_some hc
  cases s with
  | ofNamespace n => exact List.mem_append_right _ (List.mem_map_of_mem hmem)
  | ofClass c' => exact List.mem_map_of_mem hmem

theorem Scope.child?_mem_children {s c : Scope} {name : String} (hc : s.child? name = some c) :
    c ∈ s.children := by
  cases s with
  | ofNamespace n =>
    unfold child? at hc
    dsimp only at hc
    split at hc
    · next m hm =>
      obtain rfl := Option.some.inj hc
      exact List.mem_append_left _ (List.mem_map_of_mem (List.mem_of_find?_eq_some hm))
    · obtain ⟨c, hfound, rfl⟩ := Option.map_eq_some_iff.mp hc
      exact findClass?_mem_children hfound
  | ofClass c' =>
    obtain ⟨c, hfound, rfl⟩ := Option.map_eq_some_iff.mp hc
    exact findClass?_mem_children hfound

theorem Scope.sizeOf_children_lt {s c : Scope} (hc : c ∈ s.children) : sizeOf c < sizeOf s := by
  cases s with
  | ofNamespace n =>
    obtain ⟨decls, classes, namespaces⟩ := n
    rcases List.mem_append.mp hc with hc | hc
    · obtain ⟨m, hm, rfl⟩ := List.mem_map.mp hc
      have hsize := List.sizeOf_lt_of_mem hm
      simp only [ofNamespace.sizeOf_spec, NamespaceDecl.mk.sizeOf_spec] at hsize ⊢
      omega
    · obtain ⟨m, hm, rfl⟩ := List.mem_map.mp hc
      have hsize := List.sizeOf_lt_of_mem hm
      simp only [ofNamespace.sizeOf_spec, ofClass.sizeOf_spec,
        NamespaceDecl.mk.sizeOf_spec] at hsize ⊢
      omega
  | ofClass c' =>
    obtain ⟨decls, classes, bases, params, isFinal, properties⟩ := c'
    obtain ⟨m, hm, rfl⟩ := List.mem_map.mp hc
    have hsize := List.sizeOf_lt_of_mem hm
    simp only [ofClass.sizeOf_spec, ClassDecl.mk.sizeOf_spec] at hsize ⊢
    omega

/-- Paths lead to finitely many scopes. -/
theorem Scope.finite_descend? (s : Scope) : {c | ∃ path, s.descend? path = some c}.Finite := by
  induction hsize : sizeOf s using Nat.strong_induction_on generalizing s with
  | _ size ih =>
    have hchildren : {c | c ∈ s.children}.Finite := List.finite_toSet s.children
    refine ((hchildren.biUnion fun c hc => ih _ ?_ c rfl).insert s).subset ?_
    · exact hsize ▸ sizeOf_children_lt hc
    · rintro c ⟨path, hpath⟩
      cases path with
      | nil => exact .inl (Option.some.inj hpath).symm
      | cons name path =>
        obtain ⟨child, hchild, hpath⟩ := Option.bind_eq_some_iff.mp hpath
        exact .inr (Set.mem_biUnion (child?_mem_children hchild) ⟨path, hpath⟩)

/-- The names that typedefs of a header stand for are finitely many. -/
theorem finite_targets (h : Header) :
    {name | ∃ path last d, h.Declares path last d ∧ d.target.name = name}.Finite := by
  have hscopes := (Scope.ofNamespace h.global).finite_descend?
  refine (hscopes.biUnion fun s _ =>
    List.finite_toSet (s.decls.typedefs.map (·.target.name))).subset ?_
  rintro name ⟨path, last, d, ⟨s, hs, hd⟩, rfl⟩
  have hmem : d ∈ s.decls.typedefs := List.mem_of_find?_eq_some hd
  exact Set.mem_biUnion ⟨path, hs⟩ (List.mem_map.mpr ⟨d, hmem, rfl⟩)

/-! ### Loops -/

theorem Leads.concat {last : List String} {d : TypedefDecl} (hds : h.Leads scope name ds last)
    (hd : h.Visible scope last d) (hother : d.target.name ≠ last) :
    h.Leads scope name (ds ++ [d]) d.target.name := by
  induction hds with
  | nil name => exact .cons hd hother (.nil _)
  | cons hd' hother' _ ih => exact .cons hd' hother' (ih hd hother)

theorem exists_leads_of_reflTransGen
    (hpath : Relation.ReflTransGen (h.Aliases scope) name other) :
    ∃ ds, h.Leads scope name ds other := by
  induction hpath with
  | refl => exact ⟨[], .nil name⟩
  | tail _ halias ih =>
    obtain ⟨ds, hds⟩ := ih
    obtain ⟨d, hd, rfl, hother⟩ := halias
    exact ⟨ds ++ [d], hds.concat hd hother⟩

theorem transGen_of_lt {f : Nat → List String} (hf : ∀ i, h.Aliases scope (f i) (f (i + 1)))
    {i j : Nat} (hij : i < j) : Relation.TransGen (h.Aliases scope) (f i) (f j) := by
  induction j, hij using Nat.le_induction with
  | base => exact .single (hf i)
  | succ j _ ih => exact ih.tail (hf j)

/-- What never ends runs through the finitely many names of targets, and comes back to one. -/
theorem loops_of_not_endsAfter (hend : ∀ k, ¬ h.EndsAfter scope name k) : h.Loops scope name := by
  have hnext : ∀ other, Relation.ReflTransGen (h.Aliases scope) name other →
      ∃ next, h.Aliases scope other next := by
    intro other hpath
    by_contra hnone
    obtain ⟨ds, hds⟩ := exists_leads_of_reflTransGen hpath
    refine hend ds.length ⟨ds, other, hds, fun d hd => ?_, rfl⟩
    by_contra hother
    exact hnone ⟨_, d, hd, rfl, hother⟩
  choose! next hnext using hnext
  have hreach : ∀ i, Relation.ReflTransGen (h.Aliases scope) name (next^[i] name) := by
    intro i
    induction i with
    | zero => exact .refl
    | succ i ih =>
      rw [Function.iterate_succ_apply']
      exact ih.tail (hnext _ ih)
  have hstep : ∀ i, h.Aliases scope (next^[i] name) (next^[i + 1] name) := by
    intro i
    rw [Function.iterate_succ_apply']
    exact hnext _ (hreach i)
  have htarget : ∀ i, next^[i + 1] name ∈
      {name | ∃ path last d, h.Declares path last d ∧ d.target.name = name} := by
    intro i
    obtain ⟨d, hd, htarget, -⟩ := hstep i
    obtain ⟨path, last, hd⟩ := hd.declares
    exact ⟨path, last, d, hd, htarget⟩
  obtain ⟨i, j, hij, hsame⟩ := Set.Finite.exists_lt_map_eq_of_forall_mem htarget h.finite_targets
  refine ⟨next^[i + 1] name, hreach (i + 1), ?_⟩
  have hback := transGen_of_lt hstep (Nat.succ_lt_succ hij)
  rwa [← hsame] at hback

/-! ### The limit -/

theorem exists_resolve_iff {t : TypeExpr} : (∃ r, h.resolve t scope limit = .ok r) ↔
    ∃ k < limit, h.EndsAfter scope t.name k := by
  constructor
  · rintro ⟨r, hr⟩
    obtain ⟨ds, hds, hplain, hshort, -⟩ := expandAll_eq_ok_iff.mp hr
    exact ⟨ds.length, hshort, ds, r.name, hds, hplain, rfl⟩
  · rintro ⟨_, hshort, ds, last, hds, hplain, rfl⟩
    have hname := hds.name_expanded
    refine ⟨expanded t ds, expandAll_eq_ok_iff.mpr ⟨ds, ?_, ?_, hshort, rfl⟩⟩
    · exact hname.symm ▸ hds
    · exact hname.symm ▸ hplain

/-- A type is resolved if it needs fewer expansions than the limit. Where it needs as many, or more,
or where there is no end of them because aliases loop, the limit is reported. -/
theorem resolve_by_expansions (h : Header) (t : TypeExpr) (scope : List String) (limit : Nat) :
    (∀ k, h.EndsAfter scope t.name k →
      (k < limit → ∃ r, h.resolve t scope limit = .ok r) ∧
      (limit ≤ k → h.resolve t scope limit = .error (.recursionLimit limit))) ∧
    ((∀ k, ¬ h.EndsAfter scope t.name k) →
      h.resolve t scope limit = .error (.recursionLimit limit)) ∧
    ((∀ k, ¬ h.EndsAfter scope t.name k) ↔ h.Loops scope t.name) := by
  refine ⟨fun k hk => ⟨fun hlt => ?_, fun hle => ?_⟩, fun hend => ?_, ?_⟩
  · exact exists_resolve_iff.mpr ⟨k, hlt, hk⟩
  · refine expandAll_eq_error fun r hr => ?_
    obtain ⟨k', hlt, hk'⟩ := exists_resolve_iff.mp ⟨r, hr⟩
    exact absurd (hk'.unique hk) (hlt.trans_le hle).ne
  · refine expandAll_eq_error fun r hr => ?_
    obtain ⟨k, -, hk⟩ := exists_resolve_iff.mp ⟨r, hr⟩
    exact hend k hk
  · exact ⟨loops_of_not_endsAfter, fun hloops k => hloops.not_endsAfter⟩

/-- One alias, and two that stand for each other. -/
def aliasHeader : Header where
  global := {
    decls := {
      typedefs := [
        { name := "Real", target := { name := ["double"] } },
        { name := "Ping", target := { name := ["Pong"] } },
        { name := "Pong", target := { name := ["Ping"] } }] } }

theorem endsAfter_real : aliasHeader.EndsAfter [] ["Real"] 1 :=
  have hreal : aliasHeader.Visible [] ["Real"] { name := "Real", target := { name := ["double"] } } :=
    findTypedef?_eq_some_iff.mp rfl
  have hdouble : aliasHeader.Unaliased [] ["double"] :=
    expand?_eq_none_iff.mp (show aliasHeader.expand? [] { name := ["double"] } = none from rfl)
  ⟨_, ["double"], .cons hreal (by decide) (.nil _), hdouble, rfl⟩

theorem loops_ping : aliasHeader.Loops [] ["Ping"] :=
  have hping : aliasHeader.Aliases [] ["Ping"] ["Pong"] :=
    ⟨_, findTypedef?_eq_some_iff.mp rfl, rfl, by decide⟩
  have hpong : aliasHeader.Aliases [] ["Pong"] ["Ping"] :=
    ⟨_, findTypedef?_eq_some_iff.mp rfl, rfl, by decide⟩
  ⟨["Ping"], .refl, .tail (.single hping) hpong⟩

theorem resolve_by_expansions_alias :
    aliasHeader.EndsAfter [] ["Real"] 1 ∧
      (∃ r, aliasHeader.resolve { name := ["Real"] } [] 2 = .ok r) ∧
      aliasHeader.resolve { name := ["Real"] } [] 1 = .error (.recursionLimit 1) ∧
      aliasHeader.Loops [] ["Ping"] ∧
      aliasHeader.resolve { name := ["Ping"] } [] 64 = .error (.recursionLimit 64) := by
  have hone := (resolve_by_expansions aliasHeader { name := ["Real"] } [] 1).1 1 endsAfter_real
  have htwo := (resolve_by_expansions aliasHeader { name := ["Real"] } [] 2).1 1 endsAfter_real
  obtain ⟨-, hendless, hloops⟩ := resolve_by_expansions aliasHeader { name := ["Ping"] } [] 64
  exact ⟨endsAfter_real, htwo.1 (by decide), hone.2 (by decide), loops_ping,
    hendless (hloops.mpr loops_ping)⟩

/-- No more expansions are needed than the limit allows, and still it is reported. -/
theorem exact_limit_refused :
    aliasHeader.EndsAfter [] ["Real"] 1 ∧
      aliasHeader.resolve { name := ["Real"] } [] 1 = .error (.recursionLimit 1) :=
  ⟨endsAfter_real, rfl⟩

end BindingModel.Header
