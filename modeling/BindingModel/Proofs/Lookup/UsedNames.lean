import BindingModel.Proofs.Lookup.Arrays
import BindingModel.Proofs.Lookup.Innermost

/-! What a type is bound to depends only on what the names mean that it uses. -/
namespace BindingModel.Lookup
open Api
variable {l : Lookup} {self self' : TypeExpr → Except Error BoundType}
  {class? class?' : Option ClassId} {scope : List String} {t u : TypeExpr} {n : Nat}

/-- The first type is bound by the name of the second one: by its own, by that of its element or of
an argument, or by that of the type that its typedefs make of it. -/
inductive Uses (l : Lookup) (scope : List String) : TypeExpr → TypeExpr → Prop
  | self (t : TypeExpr) : Uses l scope t t
  | element {t u : TypeExpr} (h : Uses l scope (elementOf t) u) : Uses l scope t u
  | arg {t a u : TypeExpr} (ha : a ∈ boundArgs t) (h : Uses l scope a u) : Uses l scope t u
  | expanded {header : Header} {t v u : TypeExpr} (hheader : l.header? = some header)
      (hv : header.resolve t scope l.maxScopeDepth = .ok v) (h : Uses l scope v u) :
      Uses l scope t u

/-- Every name that the type uses means the same in both classes, or in the class and globally. -/
def SameNames (l : Lookup) (class? class?' : Option ClassId) (scope : List String)
    (t : TypeExpr) : Prop :=
  ∀ u, l.Uses scope t u →
    l.meaning? (lookupName u) u.localName class? = l.meaning? (lookupName u) u.localName class?'

/-- A name that is in no scope of the class means what it means globally, template parameters
apart. -/
theorem meaning?_of_findInClass?_eq_none {c : ClassId} {name : String} (localName : String)
    (hname : l.findInClass? name c = none) (hparams : (l.store.get c).templateParams = []) :
    l.meaning? name localName (some c) = l.meaning? name localName none := by
  simp [meaning?, hname, hparams]

/-- A name without arguments to which no typedef applies is the only one that its type uses. -/
theorem Uses.eq_of_plain (h : l.Uses scope t u) (hargs : t.args = []) (hdims : t.dims = [])
    (hplain : ∀ header, l.header? = some header → header.Unaliased scope t.name) : u = t := by
  induction h with
  | self => rfl
  | element _ ih =>
    rw [elementOf_of_dims_eq_nil hdims] at ih
    exact ih hargs hdims hplain
  | @arg t a u ha =>
    have hnone : boundArgs t = [] := by
      unfold boundArgs
      rw [hargs]
      exact ite_self []
    rw [hnone] at ha
    cases ha
  | expanded hheader hv _ ih =>
    obtain rfl := Header.eq_of_resolve (hplain _ hheader) hv
    exact ih hargs hdims hplain

theorem sameNames_of_plain (hargs : t.args = []) (hdims : t.dims = [])
    (hplain : ∀ header, l.header? = some header → header.Unaliased scope t.name)
    (h : l.meaning? t.qualifiedName t.localName class? =
      l.meaning? t.qualifiedName t.localName class?') : l.SameNames class? class?' scope t := by
  intro u hu
  obtain rfl := hu.eq_of_plain hargs hdims hplain
  obtain ⟨hname, -⟩ := lookupName_of_ne (t := u) fun hne => absurd hargs hne
  rw [hname]
  exact h

theorem attachArguments_congr {args : List TypeExpr} (h : ∀ a ∈ args, self a = self' a) (i : Nat)
    (b : BoundType) : attachArguments self t i b args = attachArguments self' t i b args := by
  induction args generalizing i b with
  | nil => rfl
  | cons a args ih =>
    obtain ⟨ha, hargs⟩ := List.forall_mem_cons.mp h
    unfold attachArguments
    rw [ha]
    simp only [ih hargs]

/-- One level of binding reads the name of the type, its element and its arguments. -/
theorem bindWritten_congr
    (hname : l.meaning? (lookupName t) t.localName class? =
      l.meaning? (lookupName t) t.localName class?')
    (helement : self (elementOf t) = self' (elementOf t))
    (hargs : ∀ a ∈ boundArgs t, self a = self' a) :
    l.bindWritten self class? t = l.bindWritten self' class?' t := by
  by_cases hparams : t.params? = none
  · by_cases hdims : t.dims = []
    · rw [bindWritten_named hparams hdims, bindWritten_named hparams hdims, hname]
      split
      · rfl
      · rw [attachArguments_congr hargs]
    · rw [bindWritten_array hparams hdims, bindWritten_array hparams hdims, helement]
  · have hpointer : t.isFunctionPointer = true := by
      simpa [TypeExpr.isFunctionPointer, Option.isSome_iff_ne_none] using hparams
    unfold bindWritten
    rw [if_pos hpointer, if_pos hpointer]

theorem bindAt_congr (h : l.SameNames class? class?' scope t) :
    l.bindAt class? scope n t = l.bindAt class?' scope n t := by
  induction n generalizing t with
  | zero => rfl
  | succ n ih =>
    have hwritten : ∀ {v}, l.SameNames class? class?' scope v →
        l.bindWritten (l.bindAt class? scope n) class? v =
          l.bindWritten (l.bindAt class?' scope n) class?' v := by
      intro v hv
      refine bindWritten_congr (hv v (.self v)) (ih fun u hu => hv u (.element hu)) ?_
      intro a ha
      exact ih fun u hu => hv u (.arg ha hu)
    unfold bindAt
    rw [hwritten h]
    split
    · rfl
    · rfl
    · split
      · rfl
      · next header hheader =>
        split
        · rfl
        · next v hv =>
          rw [hwritten fun u hu => h u (.expanded hheader hv hu)]

/-- Where all names that a type uses mean the same, the type is the same. -/
theorem bindType_congr (h : l.SameNames class? class?' scope t) :
    l.bindType t class? scope = l.bindType t class?' scope := bindAt_congr h

/-- A name without arguments that means something in either place is the same type in both exactly
if it means the same there. -/
theorem bindType_eq_iff {e e' : Entry} (hargs : t.args = []) (hdims : t.dims = [])
    (hparams : t.params? = none)
    (he : l.meaning? t.qualifiedName t.localName class? = some e)
    (he' : l.meaning? t.qualifiedName t.localName class?' = some e') :
    l.bindType t class? scope = l.bindType t class?' scope ↔ e = e' := by
  rw [bindType_of_meaning? hargs hdims hparams he, bindType_of_meaning? hargs hdims hparams he']
  constructor
  · intro h
    exact congrArg BoundType.entry (Except.ok.inj h)
  · rintro rfl
    rfl

end BindingModel.Lookup
