import BindingModel.Api.Substitution
import BindingModel.Proofs.Error

/-! Where placeholders are left in the instance of a type: in the elements of arrays only. -/
namespace BindingModel.Api.BoundType

/-- No placeholder at any depth, but perhaps in the elements of arrays. -/
inductive Filled : BoundType → Prop
  | intro {t : BoundType} (entry : t.entry.ordinal? = none) (args : ∀ a ∈ t.args, a.Filled) :
      t.Filled

/-- No placeholder at any depth. -/
inductive Concrete : BoundType → Prop
  | intro {t : BoundType} (entry : t.entry.ordinal? = none) (args : ∀ a ∈ t.args, a.Concrete)
      (element : ∀ e, t.element? = some e → e.Concrete) : t.Concrete

/-- No placeholder in the elements of arrays. -/
inductive ConcreteElements : BoundType → Prop
  | intro {t : BoundType} (args : ∀ a ∈ t.args, a.ConcreteElements)
      (element : ∀ e, t.element? = some e → e.Concrete) : t.ConcreteElements

theorem Concrete.filled {t : BoundType} (h : t.Concrete) : t.Filled := by
  induction h with
  | intro entry args element ihargs ihelement => exact ⟨entry, ihargs⟩

theorem Concrete.elements {t : BoundType} (h : t.Concrete) : t.ConcreteElements := by
  induction h with
  | intro entry args element ihargs ihelement => exact ⟨ihargs, element⟩

theorem Filled.concrete {t : BoundType} (h : t.Filled) (hc : t.ConcreteElements) :
    t.Concrete := by
  induction h with
  | intro entry args ihargs =>
    obtain ⟨hargs, helement⟩ := hc
    exact ⟨entry, fun a ha => ihargs a ha (hargs a ha), helement⟩

/-- What comes of a type when its placeholders are replaced. -/
structure Fills (t u : BoundType) : Prop where
  filled : u.Filled
  elements : t.ConcreteElements → u.ConcreteElements

theorem Fills.concrete {t u : BoundType} (h : t.Fills u) (ht : t.ConcreteElements) : u.Concrete :=
  h.filled.concrete (h.elements ht)

section
variable {bindings : List BoundType} (hbindings : ∀ b ∈ bindings, b.ConcreteElements)
include hbindings

theorem ConcreteElements.replacePlaceholder {t arg : BoundType} (h : t.ConcreteElements)
    (harg : arg ∈ bindings) : (t.replacePlaceholder arg).ConcreteElements := by
  obtain ⟨hargs, -⟩ := hbindings arg harg
  obtain ⟨-, helement⟩ := h
  exact ⟨hargs, helement⟩

/-- The induction is on the levels that are left: one is spent for every placeholder, and one for
the arguments of a type. -/
theorem fills_of_instantiateAt {n : Nat} {t u : BoundType}
    (h : instantiateAt bindings n t = .ok u) : t.Fills u := by
  induction n generalizing t u with
  | zero => cases h
  | succ n ih =>
    unfold instantiateAt at h
    split at h
    · next i hplaceholder =>
      split at h
      · cases h
      · next arg harg =>
        split at h
        · cases h
        · have hfills := ih h
          refine ⟨hfills.filled, fun ht => hfills.elements ?_⟩
          exact ht.replacePlaceholder hbindings (List.mem_of_getElem? harg)
    · next hentry =>
      split at h
      · next hnone =>
        cases h
        refine ⟨⟨hentry, fun a ha => ?_⟩, id⟩
        rw [List.isEmpty_iff.mp hnone] at ha
        cases ha
      · obtain ⟨args, hargs, h⟩ := Error.bind_eq_ok h
        cases h
        have hinstances := Error.forall₂_of_mapM hargs
        refine ⟨⟨hentry, fun b hb => ?_⟩, fun ht => ?_⟩
        · obtain ⟨a, -, hab⟩ := Error.exists_of_mem_forall₂ hinstances hb
          exact (ih hab).filled
        · obtain ⟨hinner, helement⟩ := ht
          refine ⟨fun b hb => ?_, helement⟩
          obtain ⟨a, ha, hab⟩ := Error.exists_of_mem_forall₂ hinstances hb
          exact (ih hab).elements (hinner a ha)

theorem fills_of_instantiate {maxDepth : Nat} {t u : BoundType}
    (h : instantiate bindings maxDepth t = .ok u) : t.Fills u :=
  fills_of_instantiateAt hbindings h

end

/-- An array made of a pointer has elements of the type that it points to. -/
theorem Fills.asArray {t u v : BoundType} (h : t.Fills u) (hv : u.asArray = .ok v) :
    t.Fills v := by
  unfold BoundType.asArray at hv
  split at hv
  · cases hv
  · cases hv
    obtain ⟨⟨hentry, hargs⟩, helements⟩ := h
    refine ⟨⟨hentry, hargs⟩, fun ht => ?_⟩
    obtain ⟨hinner, helement⟩ := helements ht
    refine ⟨hinner, fun e he => ?_⟩
    obtain rfl := Option.some.inj he
    exact ⟨hentry, fun a ha => (hargs a ha).concrete (hinner a ha), helement⟩

/-- What a type becomes in an instance: its placeholders are replaced, and then it may be marked as
an array. -/
inductive Becomes (bindings : List BoundType) (maxDepth : Nat) (t : BoundType) : BoundType → Prop
  | substituted {u : BoundType} (h : instantiate bindings maxDepth t = .ok u) :
      Becomes bindings maxDepth t u
  | array {u v : BoundType} (h : Becomes bindings maxDepth t u) (hv : u.asArray = .ok v) :
      Becomes bindings maxDepth t v

theorem Becomes.fills {bindings : List BoundType} {maxDepth : Nat} {t u : BoundType}
    (h : Becomes bindings maxDepth t u) (hbindings : ∀ b ∈ bindings, b.ConcreteElements) :
    t.Fills u := by
  induction h with
  | substituted h => exact fills_of_instantiate hbindings h
  | array _ hv ih => exact ih.asArray hv

end BindingModel.Api.BoundType
