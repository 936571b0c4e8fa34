import BindingModel.Proofs.Api.Replacement
import BindingModel.Proofs.Lookup.Levels

/-! What arrays are bound to, and aliases of them: where an alias of an array is used with further
dimensions, these are the outer ones of the binding and the inner ones of the resolved type. -/
namespace BindingModel
namespace Api.BoundType

/-- Arrays of these counts around an element, the outermost one first. -/
inductive Nested (element : BoundType) : List (Option Int) → BoundType → Prop
  | nil : Nested element [] element
  | cons {counts : List (Option Int)} {inner : BoundType} (count? : Option Int) (written : String)
      (h : Nested element counts inner) :
      Nested element (count? :: counts)
        (decided { arrayOf (.arrayOf inner.entry) inner count? with written })

variable {x y a b : BoundType} {cs ds : List (Option Int)}

theorem Nested.append (ha : Nested y cs a) (hy : Nested x ds y) : Nested x (cs ++ ds) a := by
  induction ha with
  | nil => exact hy
  | cons count? written _ ih => exact .cons count? written ih

theorem name_eq_of_equal (h : equal a b = true) : a.entry.name = b.entry.name := by
  cases a
  cases b
  simp only [equal, Bool.and_eq_true, beq_iff_eq] at h
  simp [h]

theorem count?_eq_of_equal (h : equal a b = true) : a.count? = b.count? := by
  cases a
  cases b
  simp only [equal, Bool.and_eq_true, beq_iff_eq] at h
  exact h.2

theorem equal_arrayOf (c c' : Option Int) (s s' : String) :
    equal (decided { arrayOf (.arrayOf a.entry) a c with written := s })
        (decided { arrayOf (.arrayOf b.entry) b c' with written := s' }) = true ↔
      c = c' ∧ equal a b = true := by
  simp only [decided, arrayOf, Entry.arrayOf, Entry.kind, EntryDetail.kind, equal, equalList,
    equalOption, Bool.and_eq_true, beq_iff_eq, true_and, and_true]
  constructor
  · rintro ⟨⟨-, hequal⟩, hcount⟩
    exact ⟨hcount, hequal⟩
  · rintro ⟨hcount, hequal⟩
    exact ⟨⟨by rw [name_eq_of_equal hequal], hequal⟩, hcount⟩

theorem not_equal_arrayOf (hx : x.element? = none) (entry : Entry) (c : Option Int) (s : String) :
    equal x (decided { arrayOf entry a c with written := s }) = false ∧
      equal (decided { arrayOf entry a c with written := s }) x = false := by
  cases x
  obtain rfl := hx
  simp [decided, arrayOf, equal, equalOption]

/-- Arrays are equal if they have equal counts in the same order and equal elements. -/
theorem Nested.equal_iff (ha : Nested x cs a) (hb : Nested y ds b) (hx : x.element? = none)
    (hy : y.element? = none) : equal a b = true ↔ cs = ds ∧ equal x y = true := by
  induction ha generalizing ds b with
  | nil =>
    cases hb with
    | nil => simp
    | cons count? written _ => simp [(not_equal_arrayOf hx _ _ _).1]
  | cons count? written _ ih =>
    cases hb with
    | nil => simp [(not_equal_arrayOf hy _ _ _).2]
    | cons count?' written' hb =>
      rw [equal_arrayOf, ih hb, List.cons.injEq, and_assoc]

end Api.BoundType

namespace Lookup
open Api BoundType
variable {l : Lookup} {self : TypeExpr → Except Error BoundType} {class? : Option ClassId}
  {t u v w : TypeExpr} {a b x y : BoundType} {n m p : Nat}

/-- The count of the elements in one dimension of an array. -/
def countOf? (l : Lookup) (dim : String) : Option Int :=
  if Text.trim dim = "" then none else l.value? dim

/-- What is bound inside the arrays of a type. -/
def elementOf (t : TypeExpr) : TypeExpr :=
  { t with dims := [], pointers := if isString t then 1 else t.pointers }

/-- The counts of the arrays that a type is bound to, the outermost one first. -/
def countsOf (l : Lookup) (t : TypeExpr) : List (Option Int) :=
  if isString t then [] else t.dims.map l.countOf?

/-- What the element of a use of an alias stands for, where the alias stands for `v`. -/
def aliasedElement (t v : TypeExpr) : TypeExpr := v.declared (if isString t then 1 else 0) []

theorem nested_wrapArrays (l : Lookup) (written : String) (element : BoundType)
    (dims : List String) :
    Nested element (dims.map l.countOf?) (l.wrapArrays written element dims) := by
  induction dims with
  | nil => exact .nil
  | cons dim dims ih => exact .cons _ written ih

theorem isString_of_dims_eq_nil (hdims : t.dims = []) : isString t = false := by
  simp [isString, hdims]

theorem elementOf_of_dims_eq_nil (hdims : t.dims = []) : elementOf t = t := by
  unfold elementOf
  rw [isString_of_dims_eq_nil hdims]
  cases t
  simp_all

theorem params?_of_bindWritten (h : l.bindWritten self class? t = .ok b) : t.params? = none := by
  by_contra hparams
  have hpointer : t.isFunctionPointer = true := by
    simpa [TypeExpr.isFunctionPointer, Option.isSome_iff_ne_none] using hparams
  unfold bindWritten at h
  rw [if_pos hpointer] at h
  cases h

theorem bindWritten_array (hparams : t.params? = none) (hdims : t.dims ≠ []) :
    l.bindWritten self class? t = (self (elementOf t)).map
      fun x => l.wrapArrays t.text x (if isString t then [] else t.dims) := by
  have hpointer : t.isFunctionPointer = false := by simp [TypeExpr.isFunctionPointer, hparams]
  have harray : t.isArray = true := by simp [TypeExpr.isArray, hdims]
  unfold bindWritten bindArray elementOf
  rw [if_neg (by simp [hpointer]), if_pos harray]
  cases isString t
  · rfl
  · simp only [if_true]
    cases self { t with dims := [], pointers := 1 } <;> rfl

theorem nested_of_bindWritten (hdims : t.dims ≠ []) (h : l.bindWritten self class? t = .ok b) :
    ∃ x, self (elementOf t) = .ok x ∧ Nested x (l.countsOf t) b := by
  rw [bindWritten_array (params?_of_bindWritten h) hdims] at h
  obtain ⟨x, hx, rfl⟩ := Error.map_eq_ok_iff.mp h
  refine ⟨x, hx, ?_⟩
  have hnested := nested_wrapArrays l t.text x (if isString t then [] else t.dims)
  unfold countsOf
  cases hstring : isString t <;> simpa [hstring] using hnested

theorem element?_of_bindWritten (hdims : t.dims = []) (h : l.bindWritten self class? t = .ok b) :
    b.element? = none := by
  obtain ⟨_, _, _, _, _, rfl⟩ := (bindWritten_eq_ok_iff (params?_of_bindWritten h) hdims).mp h
  rfl

/-! ### Types that no typedef applies to -/

section
variable {h : Header} {scope : List String} (hheader : l.header? = some h)
include hheader

/-- What a type is bound to is its element in arrays, one for each dimension. -/
theorem exists_nested (hplain : h.Unaliased scope t.name)
    (hb : l.bindWritten (l.bindAt class? scope n) class? t = .ok b) :
    ∃ m x, l.bindAt class? scope m (elementOf t) = .ok x ∧ x.element? = none ∧
      Nested x (l.countsOf t) b := by
  by_cases hdims : t.dims = []
  · have hcounts : l.countsOf t = [] := by simp [countsOf, hdims]
    rw [hcounts, elementOf_of_dims_eq_nil hdims]
    exact ⟨n + 1, b, (bindAt_of_unaliased hheader hplain).mpr hb,
      element?_of_bindWritten hdims hb, .nil⟩
  · obtain ⟨x, hx, hnested⟩ := nested_of_bindWritten hdims hb
    refine ⟨n, x, hx, ?_, hnested⟩
    cases n with
    | zero => cases hx
    | succ n =>
      have hwritten := (bindAt_of_unaliased (t := elementOf t) hheader hplain).mp hx
      exact element?_of_bindWritten rfl hwritten

theorem exists_bindAt_pointers (hparams : t.params? = none) (hplain : h.Unaliased scope t.name)
    (hx : l.bindAt class? scope (n + 1) { t with dims := [], pointers := p } = .ok x) (q : Nat) :
    ∃ y, l.bindAt class? scope (n + 1) { t with dims := [], pointers := q } = .ok y := by
  have hat : ∀ q y, l.bindAt class? scope (n + 1) { t with dims := [], pointers := q } = .ok y ↔
      l.bindWritten (l.bindAt class? scope n) class? { t with dims := [], pointers := q } = .ok y :=
    fun q y => bindAt_of_unaliased (t := { t with dims := [], pointers := q }) hheader hplain
  obtain ⟨y, hy⟩ := exists_bindWritten_pointers (t := { t with dims := [], pointers := p })
    hparams rfl q ((hat p x).mp hx)
  exact ⟨y, (hat q y).mpr hy⟩

/-- Where the element can be bound with one level more, so can the type, or a limit is reported. -/
theorem bindWritten_ok_or_limit (hparams : t.params? = none) (hplain : h.Unaliased scope t.name)
    (hx : l.bindAt class? scope (n + 1) { t with dims := [], pointers := p } = .ok x) :
    (∃ b, l.bindWritten (l.bindAt class? scope n) class? t = .ok b) ∨
      ∃ k, l.bindWritten (l.bindAt class? scope n) class? t = .error (.recursionLimit k) := by
  obtain ⟨y, hy⟩ := exists_bindAt_pointers hheader hparams hplain hx (elementOf t).pointers
  by_cases hdims : t.dims = []
  · have hsame : { t with dims := [], pointers := (elementOf t).pointers } = t :=
      elementOf_of_dims_eq_nil hdims
    rw [hsame] at hy
    exact .inl ⟨y, (bindAt_of_unaliased hheader hplain).mp hy⟩
  · rw [bindWritten_array hparams hdims]
    have hlimited := bindAt_limited l class? scope (Nat.le_succ n) (elementOf t)
    have hsame : elementOf t = { t with dims := [], pointers := (elementOf t).pointers } := rfl
    rw [← hsame] at hy
    rw [hy] at hlimited
    rcases hlimited.ok_or_limit with hok | ⟨k, hlimit⟩
    · rw [hok]
      exact .inl ⟨_, rfl⟩
    · rw [hlimit]
      exact .inr ⟨k, rfl⟩

end

/-! ### Aliases of arrays -/

theorem isString_iff : isString t = true ↔ t.dims.length = 1 ∧ t.isConst = true ∧ t.pointers = 0 ∧
    t.ref = .none ∧ t.name = ["char"] := by
  simp [isString, and_assoc]

theorem length_countsOf (l : Lookup) (t : TypeExpr) :
    (l.countsOf t).length = if isString t then 0 else t.dims.length := by
  unfold countsOf
  cases isString t <;> simp

theorem declared_nil (t : TypeExpr) : t.declared 0 [] = t := by
  cases t
  simp [TypeExpr.declared]

theorem aliasedElement_eq (ht : isString t = false) : aliasedElement t v = v := by
  unfold aliasedElement
  rw [ht]
  exact declared_nil v

theorem declared_dims (t : TypeExpr) : ({ t with dims := [] } : TypeExpr).declared 0 t.dims = t := by
  cases t
  rfl

theorem elementOf_eq_aliasedElement (t : TypeExpr) :
    elementOf t = aliasedElement t { t with dims := [] } := by
  unfold elementOf aliasedElement TypeExpr.declared
  cases hstring : isString t with
  | false => simp
  | true => simp [(isString_iff.mp hstring).2.2.1]

/-- Counted from the outside, an alias of an array and what it is resolved to have the same arrays
only if none of them is taken for a string. -/
theorem countsOf_alias_iff (hdims : t.dims ≠ []) (hname : v.name ≠ t.name) :
    l.countsOf t ++ l.countsOf (aliasedElement t v) = l.countsOf (v.declared 0 t.dims) ↔
      (t.dims ++ v.dims).map l.countOf? = (v.dims ++ t.dims).map l.countOf? ∧
        isString t = false ∧ isString v = false ∧ isString (v.declared 0 t.dims) = false := by
  constructor
  · intro hcounts
    have hlength := congrArg List.length hcounts
    rw [List.length_append, length_countsOf, length_countsOf, length_countsOf] at hlength
    cases ht : isString t with
    | true =>
      obtain ⟨hone, -, -, -, hchar⟩ := isString_iff.mp ht
      have helement : aliasedElement t v = v.declared 1 [] := by
        unfold aliasedElement
        rw [ht]
        rfl
      have hpointer : isString (v.declared 1 []) = false := by simp [isString, TypeExpr.declared]
      have hother : isString (v.declared 0 t.dims) = false := by
        have hv : v.name ≠ ["char"] := hchar ▸ hname
        simp [isString, TypeExpr.declared, hv]
      simp [ht, helement, hpointer, hother, hone] at hlength
    | false =>
      rw [aliasedElement_eq ht] at hcounts hlength
      simp only [ht, Bool.false_eq_true, if_false] at hlength
      cases hv : isString v with
      | true =>
        have hone := (isString_iff.mp hv).1
        have hother : isString (v.declared 0 t.dims) = false := by
          simp [isString, TypeExpr.declared, hone, hdims]
        simp [hv, hother, hone] at hlength
      | false =>
        cases hu : isString (v.declared 0 t.dims) with
        | true => simp [hv, hu, hdims] at hlength
        | false =>
          refine ⟨?_, rfl, rfl, rfl⟩
          simpa [countsOf, ht, hv, hu] using hcounts
  · rintro ⟨hcounts, ht, hv, hu⟩
    rw [aliasedElement_eq ht]
    simpa [countsOf, ht, hv, hu] using hcounts

section
variable {h : Header} {scope : List String} {limit : Nat} (hheader : l.header? = some h)
  (hdims : t.dims ≠ []) (hparams : t.params? = none)
  (hnone : l.meaning? (lookupName (elementOf t)) t.localName class? = none)
  (hv : h.resolve { t with dims := [] } scope limit = .ok v)
include hheader hdims hparams hnone hv

omit hdims hv in
/-- The element of an alias's use is bound as what the alias stands for. -/
theorem bindAt_elementOf (hv' : h.resolve { t with dims := [] } scope l.maxScopeDepth = .ok v)
    (hname : v.name ≠ t.name) :
    l.bindAt class? scope (n + 1) (elementOf t) =
      l.bindWritten (l.bindAt class? scope n) class? (aliasedElement t v) := by
  refine bindAt_alias hheader hparams rfl hnone ?_ fun hsame => hname (congrArg (·.name) hsame)
  rw [elementOf_eq_aliasedElement]
  exact Header.resolve_declared_iff.mpr ⟨v, hv', rfl⟩

/-- The use of an alias is bound as it is written if what the alias stands for can be bound. -/
theorem bindWritten_of_bindAt_alias (ha : l.bindAt class? scope (n + 1) t = .ok a)
    (hb : l.bindAt class? scope (n + 1) (v.declared 0 t.dims) = .ok b) :
    l.bindWritten (l.bindAt class? scope n) class? t = .ok a := by
  rcases bindAt_cases hheader ha with hwritten | ⟨e, u, hwritten, hlimit, hu, hne, -⟩
  · exact hwritten
  exfalso
  have hplain : h.Unaliased scope v.name := Header.unaliased_of_resolve hv
  have hbound := (bindAt_of_unaliased (t := v.declared 0 t.dims) hheader hplain).mp hb
  have hvparams : (v.declared 0 t.dims).params? = none := params?_of_bindWritten hbound
  obtain ⟨y, hy, -⟩ := nested_of_bindWritten (by simp [hdims]) hbound
  have hname := Header.name_ne_of_resolve hu hne
  rw [← declared_dims t] at hu
  obtain ⟨v', hv', rfl⟩ := Header.resolve_declared_iff.mp hu
  obtain rfl := Header.resolve_unique hv hv'
  cases n with
  | zero => cases hy
  | succ n =>
    -- The first try ends with what the element gives, which is no reason to try again.
    rw [bindWritten_array hparams hdims,
      bindAt_elementOf hheader hparams hnone hv' hname] at hwritten
    rcases bindWritten_ok_or_limit (t := aliasedElement t v) hheader
      hvparams hplain hy with ⟨x, hx⟩ | ⟨k, hk⟩
    · rw [hx] at hwritten
      cases hwritten
    · rw [hk] at hwritten
      exact hlimit k (Except.error.inj hwritten).symm

/-- The arrays around the element are those of the use, and inside them those of the alias. -/
theorem exists_nested_alias (ha : l.bindAt class? scope (n + 1) t = .ok a)
    (hb : l.bindAt class? scope (n + 1) (v.declared 0 t.dims) = .ok b) :
    v.name ≠ t.name ∧ ∃ m x,
      l.bindAt class? scope m (elementOf (aliasedElement t v)) = .ok x ∧ x.element? = none ∧
        Nested x (l.countsOf t ++ l.countsOf (aliasedElement t v)) a := by
  have hplain : h.Unaliased scope v.name := Header.unaliased_of_resolve hv
  have hwritten := bindWritten_of_bindAt_alias hheader hdims hparams hnone hv ha hb
  obtain ⟨y, hy, houter⟩ := nested_of_bindWritten hdims hwritten
  cases n with
  | zero => cases hy
  | succ n =>
    obtain ⟨w, hw, hne, hbound⟩ :=
      exists_resolve_of_bindAt (t := elementOf t) hheader hparams rfl hnone hy
    have hname := Header.name_ne_of_resolve hw hne
    rw [elementOf_eq_aliasedElement] at hw
    obtain ⟨v', hv', rfl⟩ := Header.resolve_declared_iff.mp hw
    obtain rfl := Header.resolve_unique hv hv'
    obtain ⟨m, x, hx, hnone, hinner⟩ :=
      exists_nested (t := aliasedElement t v) hheader hplain hbound
    exact ⟨hname, m, x, hx, hnone, houter.append hinner⟩

end

/-- Where an alias is used with dimensions, these are the outer ones in what the use is bound to, and
the inner ones in what the resolved type is bound to. Both are equal exactly if the counts are the
same in either order and none of the types is taken for a string. -/
theorem alias_arrays_equal_iff {l : Lookup} {h : Header} {class? : Option ClassId}
    {scope : List String} {limit : Nat} {t u : TypeExpr} {a b : BoundType}
    (hheader : l.header? = some h) (hdims : t.dims ≠ []) (hargs : t.args = [])
    (hparams : t.params? = none)
    (hnone : l.meaning? t.qualifiedName t.localName class? = none)
    (hu : h.resolve t scope limit = .ok u) (ha : l.bindType t class? scope = .ok a)
    (hb : l.bindType u class? scope = .ok b) :
    ∃ v, h.resolve { t with dims := [] } scope limit = .ok v ∧
      u = { v with dims := v.dims ++ t.dims } ∧
      (isString t = false → isString v = false → isString u = false →
        ∃ x, x.element? = none ∧ Nested x ((t.dims ++ v.dims).map l.countOf?) a ∧
          Nested x ((v.dims ++ t.dims).map l.countOf?) b) ∧
      ((a == b) = true ↔
        (t.dims ++ v.dims).map l.countOf? = (v.dims ++ t.dims).map l.countOf? ∧
          isString t = false ∧ isString v = false ∧ isString u = false) := by
  have hlookup : lookupName (elementOf t) = t.qualifiedName := by
    unfold lookupName elementOf
    rw [hargs]
    simp [TypeExpr.qualifiedName]
  rw [← hlookup] at hnone
  rw [← declared_dims t] at hu
  obtain ⟨v, hv, rfl⟩ := Header.resolve_declared_iff.mp hu
  have hplain : h.Unaliased scope v.name := Header.unaliased_of_resolve hv
  obtain ⟨hname, n, x, hx, hxnone, hna⟩ :=
    exists_nested_alias hheader hdims hparams hnone hv ha hb
  have hbound := (bindAt_of_unaliased (t := v.declared 0 t.dims) hheader hplain).mp hb
  obtain ⟨m, y, hy, hynone, hnb⟩ :=
    exists_nested (t := v.declared 0 t.dims) hheader hplain hbound
  have hsame : isString t = false → isString v = false →
      isString (v.declared 0 t.dims) = false → x = y := by
    intro ht hvstring hustring
    have helement : elementOf (aliasedElement t v) = elementOf (v.declared 0 t.dims) := by
      rw [aliasedElement_eq ht]
      simp only [elementOf, hvstring, hustring]
      rfl
    rw [helement] at hx
    exact bindAt_unique hx hy
  refine ⟨v, hv, rfl, fun ht hvstring hustring => ?_, ?_⟩
  · obtain rfl := hsame ht hvstring hustring
    refine ⟨x, hxnone, ?_, ?_⟩
    · simpa [countsOf, ht, hvstring, aliasedElement_eq ht] using hna
    · have hcounts : l.countsOf (v.declared 0 t.dims) = (v.dims ++ t.dims).map l.countOf? := by
        simp [countsOf, hustring]
      exact hcounts ▸ hnb
  · change equal a b = true ↔ _
    rw [hna.equal_iff hnb hxnone hynone, countsOf_alias_iff hdims hname]
    refine ⟨And.left, fun hall => ⟨hall, ?_⟩⟩
    obtain ⟨-, ht, hvstring, hustring⟩ := hall
    rw [hsame ht hvstring hustring]
    exact equal_self y

/-- `Row` stands for `int[4]`. -/
def rowHeader : Header where
  global := {
    decls := { typedefs := [{ name := "Row", target := { name := ["int"], dims := ["4"] } }] } }

def rowLookup : Lookup where
  db := { entries := [⟨some 0, "int", .primitive⟩] }
  header? := some rowHeader

/-- The counts of `Row[4]` are the same in either order. -/
theorem alias_arrays_equal_iff_square :
    let t : TypeExpr := { name := ["Row"], dims := ["4"] }
    let u : TypeExpr := { name := ["int"], dims := ["4", "4"] }
    ∃ a b, rowLookup.header? = some rowHeader ∧ t.dims ≠ [] ∧ t.args = [] ∧ t.params? = none ∧
      rowLookup.meaning? t.qualifiedName t.localName none = none ∧
      rowHeader.resolve t [] 64 = .ok u ∧ rowLookup.bindType t none [] = .ok a ∧
      rowLookup.bindType u none [] = .ok b ∧ (a == b) = true := by
  intro t u
  obtain ⟨a, ha, -⟩ : ∃ a, rowLookup.bindType t none [] = .ok a ∧ (a.count? == some 4) = true :=
    Error.exists_ok_of_any (by decide +kernel)
  obtain ⟨b, hb, -⟩ : ∃ b, rowLookup.bindType u none [] = .ok b ∧ (b.count? == some 4) = true :=
    Error.exists_ok_of_any (by decide +kernel)
  have hnone : rowLookup.meaning? t.qualifiedName t.localName none = none :=
    Option.isNone_iff_eq_none.mp (by decide +kernel)
  have hu : rowHeader.resolve t [] 64 = .ok u := rfl
  obtain ⟨v, hv, -, -, hequal⟩ :=
    alias_arrays_equal_iff (l := rowLookup) (t := t) rfl (by decide) rfl rfl hnone hu ha hb
  obtain rfl : v = { name := ["int"], dims := ["4"] } := Except.ok.inj (hv.symm.trans rfl)
  exact ⟨a, b, rfl, by decide, rfl, rfl, hnone, hu, ha, hb,
    hequal.mpr ⟨rfl, by decide, by decide, by decide⟩⟩

/-- `Row[3]` is bound to three arrays of four, and what it is resolved to, to four of three. -/
theorem row_dimensions_reversed :
    let t : TypeExpr := { name := ["Row"], dims := ["3"] }
    let u : TypeExpr := { name := ["int"], dims := ["4", "3"] }
    ∃ a b, rowLookup.meaning? t.qualifiedName t.localName none = none ∧
      rowHeader.resolve t [] 64 = .ok u ∧ rowLookup.bindType t none [] = .ok a ∧
      rowLookup.bindType u none [] = .ok b ∧ a.count? = some 3 ∧ b.count? = some 4 ∧
      (a == b) = false := by
  intro t u
  obtain ⟨a, ha, hacount⟩ :
      ∃ a, rowLookup.bindType t none [] = .ok a ∧ (a.count? == some 3) = true :=
    Error.exists_ok_of_any (by decide +kernel)
  obtain ⟨b, hb, hbcount⟩ :
      ∃ b, rowLookup.bindType u none [] = .ok b ∧ (b.count? == some 4) = true :=
    Error.exists_ok_of_any (by decide +kernel)
  have ha3 : a.count? = some 3 := eq_of_beq hacount
  have hb4 : b.count? = some 4 := eq_of_beq hbcount
  refine ⟨a, b, Option.isNone_iff_eq_none.mp (by decide +kernel), rfl, ha, hb, ha3, hb4, ?_⟩
  rw [Bool.eq_false_iff]
  intro hequal
  have hcount := count?_eq_of_equal hequal
  rw [ha3, hb4] at hcount
  cases hcount

end Lookup
end BindingModel
