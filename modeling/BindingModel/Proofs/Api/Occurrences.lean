import BindingModel.Proofs.Api.Placeholders

/-! What the occurrences of a placeholder in a type are replaced by. -/
namespace BindingModel.Api.BoundType

/-- The parameter of that ordinal stands for the entry. What it is bound to may be a placeholder
itself, which stands for something else in turn. -/
inductive StandsFor (entries : List Entry) : Nat → Entry → Prop
  | bound {k : Nat} {e : Entry} (h : entries[k]? = some e) (hentry : e.ordinal? = none)
      (hvoid : e.isKind .void = false) : StandsFor entries k e
  | placeholder {k l : Nat} {e e' : Entry} (h : entries[k]? = some e') (hentry : e'.ordinal? = some l)
      (hrest : StandsFor entries l e) : StandsFor entries k e

/-- The parameter of that ordinal occurs in a type, be it as an argument. The elements of arrays do
not count, as they are left as they are. -/
inductive Mentions (k : Nat) : BoundType → Prop
  | entry {t : BoundType} (h : t.entry.ordinal? = some k) : Mentions k t
  | arg {t a : BoundType} (hentry : t.entry.ordinal? = none) (ha : a ∈ t.args)
      (h : Mentions k a) : Mentions k t

/-- A type with each occurrence of a parameter replaced by what that stands for. -/
inductive Replaced (entries : List Entry) : BoundType → BoundType → Prop
  | parameter {t u : BoundType} {k : Nat} (ht : t.entry.ordinal? = some k)
      (hentry : StandsFor entries k u.entry) (hargs : u.args = []) : Replaced entries t u
  | other {t u : BoundType} (ht : t.entry.ordinal? = none) (hentry : u.entry = t.entry)
      (hlength : u.args.length = t.args.length)
      (hargs : ∀ (j : Nat) (a b : BoundType), t.args[j]? = some a → u.args[j]? = some b →
        Replaced entries a b) : Replaced entries t u

namespace Replaced
variable {entries : List Entry} {t u v : BoundType}

theorem congr (h : Replaced entries t u) (hentry : v.entry = u.entry) (hargs : v.args = u.args) :
    Replaced entries t v := by
  cases h with
  | parameter ht hstands hnone => exact .parameter ht (hentry ▸ hstands) (hargs.trans hnone)
  | other ht hsame hlength hinner =>
    refine .other ht (hentry.trans hsame) (hargs ▸ hlength) fun j a b ha hb => ?_
    exact hinner j a b ha (hargs ▸ hb)

theorem asArray (h : Replaced entries t u) (hv : u.asArray = .ok v) : Replaced entries t v := by
  unfold BoundType.asArray at hv
  split at hv
  · cases hv
  · cases hv
    exact h.congr rfl rfl

/-- Whatever a type mentions that has an instance stands for something. -/
theorem standsFor {k : Nat} (h : Replaced entries t u) (hk : t.Mentions k) :
    ∃ e, StandsFor entries k e := by
  induction hk generalizing u with
  | entry hparameter =>
    cases h with
    | parameter ht hstands =>
      obtain rfl := Option.some.inj (ht.symm.trans hparameter)
      exact ⟨_, hstands⟩
    | other ht => cases ht.symm.trans hparameter
  | @arg t a hentry ha _ ih =>
    cases h with
    | parameter ht => cases hentry.symm.trans ht
    | other _ _ hlength hargs =>
      obtain ⟨j, hj⟩ := List.getElem?_of_mem ha
      obtain ⟨hlt, -⟩ := List.getElem?_eq_some_iff.mp hj
      exact ih (hargs j a _ hj (List.getElem?_eq_getElem (hlength ▸ hlt)))

end Replaced

section
variable {bindings : List BoundType} (hbindings : ∀ b ∈ bindings, b.args = [])
include hbindings

/-- The induction is on the levels that are left. A placeholder is replaced by a binding first, which
has no arguments and is no placeholder unless another one stands behind it. -/
theorem replaced_of_instantiateAt {n : Nat} {t u : BoundType}
    (h : instantiateAt bindings n t = .ok u) : Replaced (bindings.map (·.entry)) t u := by
  induction n generalizing t u with
  | zero => cases h
  | succ n ih =>
    unfold instantiateAt at h
    split at h
    · next k hk =>
      split at h
      · cases h
      · next arg harg =>
        have hbound : (bindings.map (·.entry))[k]? = some arg.entry := by
          rw [List.getElem?_map, harg, Option.map_some]
        split at h
        · cases h
        · next hvoid =>
          cases ih h with
          | parameter hentry hstands hargs =>
            exact .parameter hk (.placeholder hbound hentry hstands) hargs
          | other hentry hsame hlength =>
            have hsame : u.entry = arg.entry := hsame
            have hnone : arg.args = [] := hbindings arg (List.mem_of_getElem? harg)
            have hlength : u.args.length = arg.args.length := hlength
            refine .parameter hk ?_ (List.eq_nil_of_length_eq_zero (by rw [hlength, hnone]; rfl))
            rw [hsame]
            exact .bound hbound hentry (Bool.eq_false_iff.mpr hvoid)
    · next hentry =>
      split at h
      · next hnone =>
        cases h
        refine .other hentry rfl rfl fun j a b ha => ?_
        rw [List.isEmpty_iff.mp hnone] at ha
        cases ha
      · obtain ⟨args, hargs, h⟩ := Error.bind_eq_ok h
        cases h
        obtain ⟨hlength, hinstances⟩ := List.forall₂_iff_get.mp (Error.forall₂_of_mapM hargs)
        refine .other hentry rfl hlength.symm fun j a b ha hb => ih ?_
        obtain ⟨hlt, rfl⟩ := List.getElem?_eq_some_iff.mp ha
        obtain ⟨hlt', rfl⟩ := List.getElem?_eq_some_iff.mp hb
        exact hinstances j hlt hlt'

theorem Becomes.replaced {maxDepth : Nat} {t u : BoundType} (h : Becomes bindings maxDepth t u) :
    Replaced (bindings.map (·.entry)) t u := by
  induction h with
  | substituted h => exact replaced_of_instantiateAt hbindings h
  | array _ hv ih => exact ih.asArray hv

end

end BindingModel.Api.BoundType
