import BindingModel.Proofs.Assembly.Siblings
import BindingModel.Proofs.FlagSet

/-! What tells functions of declarations from functions of rules, and what neither has before the
end of an assembly: settled policies. -/
namespace BindingModel
open Api Header Assembly

namespace Api.Function

/-- As a declaration makes it: no rule adds it, and its policies are not settled. -/
structure Declared (f : Function) : Prop where
  added : f.has .added = false
  settled? : f.settled? = none

/-- As a rule makes it. Rules add no abstract functions. -/
structure AddedByRule (f : Function) : Prop where
  added : f.has .added = true
  abstract : f.has .abstract = false
  settled? : f.settled? = none

end Api.Function

namespace Assembly

/-! ### Declarations -/

theorem has_editFunction (f : Function) (m : FunctionMod) {a : FunctionAttr}
    (hfinal : a ≠ .finalInTargetLang) (hdeprecated : a ≠ .deprecated) :
    (editFunction f m).has a = f.has a := by
  unfold editFunction Function.has
  rw [FlagSet.has_insertIf, decide_eq_false hdeprecated, Bool.and_false, Bool.or_false]
  split
  · rw [FlagSet.has_insert, decide_eq_false hfinal, Bool.or_false]
  · split
    · rw [FlagSet.has_erase, decide_eq_false hfinal, Bool.not_false, Bool.and_true]
    · rfl

theorem settled?_editFunctions (mods : List FunctionMod) (f : Function) :
    (editFunctions mods f).settled? = f.settled? :=
  List.foldlRecOn (motive := fun g : Function => g.settled? = f.settled?) mods editFunction rfl
    fun _ hg _ _ => hg

theorem has_added_attrsOf (s : FlagSet Specifier) : (attrsOf s).has .added = false := by
  unfold attrsOf
  simp only [FlagSet.has_insertIf]
  simp [FlagSet.has]

end Assembly

namespace Api.Function.Declared
variable {f : Function}

theorem insertIf (h : f.Declared) (c : Bool) {a : FunctionAttr} (ha : a ≠ .added) :
    Function.Declared { f with attrs := f.attrs.insertIf c a } := by
  refine ⟨?_, h.settled?⟩
  show (f.attrs.insertIf c a).has .added = false
  rw [FlagSet.has_insertIf, decide_eq_false ha.symm, Bool.and_false, Bool.or_false]
  exact h.added

theorem editFunctions (h : f.Declared) (mods : List FunctionMod) :
    (editFunctions mods f).Declared := by
  refine ⟨?_, (settled?_editFunctions mods f).trans h.settled?⟩
  refine List.foldlRecOn (motive := fun g : Function => g.has .added = false) mods editFunction
    h.added fun g hg m _ => ?_
  exact (has_editFunction g m (by decide) (by decide)).trans hg

theorem bindProperty (h : f.Declared) (properties : List Property) :
    (bindProperty properties f).Declared := by
  unfold Assembly.bindProperty
  split
  · exact h
  · split
    · next r _ =>
      refine ⟨?_, h.settled?⟩
      have hadded : f.attrs.has .added = false := h.added
      show (f.attrs.insert r.attr).has .added = false
      rw [FlagSet.has_insert, hadded]
      cases r <;> rfl
    · exact h

theorem finishMember (h : f.Declared) (s : State) (c : BoundClass) :
    (finishMember s c f).Declared := by
  have hproperty := h.bindProperty c.properties
  unfold Assembly.finishMember
  dsimp only
  generalize Assembly.bindProperty c.properties f = g at hproperty
  have hedited := hproperty.editFunctions (s.store.modsOf s.db g)
  generalize Assembly.editFunctions (s.store.modsOf s.db g) g = k at hedited
  unfold fixConversion
  split
  · split
    · exact ⟨hedited.added, hedited.settled?⟩
    · exact hedited
  · exact hedited

theorem takeObject (h : f.Declared) (objectFirst unary : Bool) :
    (takeObject objectFirst unary f).Declared := by
  have hpointer := h.insertIf (!unary &&
    (if objectFirst then f.args.head? else f.args.getLast?).any (·.type.pointers > 0))
    (a := .pointerOperator) (by decide)
  have hreverse := hpointer.insertIf (!objectFirst) (a := .reverseOperator) (by decide)
  exact ⟨hreverse.added, hreverse.settled?⟩

end Api.Function.Declared

namespace Assembly
variable {f : Function}

theorem Draft.judge_declared {d : Draft} {skipDeprecated : Bool} {decl : FunctionDecl}
    (h : (d.judge skipDeprecated decl).1 = .built f) : f.Declared := by
  unfold judge at h
  split at h
  · next verdict hscreen =>
    obtain rfl : verdict = .built f := h
    exact absurd hscreen (screen?_ne_built _ _ decl _ f)
  · have hfinish : ∀ {g : Function}, g.Declared → (d.finish g).1.Declared := by
      intro g hg
      unfold finish
      dsimp only
      split <;> exact ⟨hg.added, hg.settled?⟩
    unfold bind at h
    dsimp only at h
    split at h
    · cases h
    · split at h
      · cases h
      · cases h
        exact hfinish ⟨has_added_attrsOf decl.specifiers, rfl⟩

theorem judge_declared {env : Env} {s t : State} {p : Place} {d : FunctionDecl}
    (h : s.judge env p d = (.built f, t)) : f.Declared := by
  have hverdict := judge_fst s env p d
  rw [h] at hverdict
  exact Draft.judge_declared hverdict.symm

end Assembly

/-! ### Functions of rules -/

namespace Api.Function.AddedByRule
variable {f : Function}

theorem insertIf (h : f.AddedByRule) (c : Bool) {a : FunctionAttr} (ha : a ≠ .abstract) :
    Function.AddedByRule { f with attrs := f.attrs.insertIf c a } := by
  refine ⟨?_, ?_, h.settled?⟩
  · show (f.attrs.insertIf c a).has .added = true
    rw [FlagSet.has_insertIf, show f.attrs.has .added = true from h.added, Bool.true_or]
  · show (f.attrs.insertIf c a).has .abstract = false
    rw [FlagSet.has_insertIf, decide_eq_false ha.symm, Bool.and_false, Bool.or_false]
    exact h.abstract

theorem reverseOperator (h : f.AddedByRule) (d : Draft) :
    (d.reverseOperator f).1.AddedByRule := by
  unfold Draft.reverseOperator
  split
  · split
    · exact h
    · exact h
    · split
      · have hreverse := h.insertIf true (a := .reverseOperator) (by decide)
        exact ⟨hreverse.added, hreverse.abstract, hreverse.settled?⟩
      · exact h
    · exact h
  · exact h

theorem addedKind (h : f.AddedByRule) (c : BoundClass) : (Draft.addedKind c f).AddedByRule := by
  unfold Draft.addedKind
  split
  · split
    · next only _ =>
      have hexplicit := h.insertIf (only.type.entry.isKind .custom) (a := .explicit) (by decide)
      exact ⟨hexplicit.added, hexplicit.abstract, hexplicit.settled?⟩
    · exact ⟨h.added, h.abstract, h.settled?⟩
  · exact h

end Api.Function.AddedByRule

namespace Assembly

theorem Draft.added_addedByRule {d : Draft} {a : AddedFunction} {f : Function}
    {ws : List Warning} (h : d.added a = .ok (f, ws)) : f.AddedByRule := by
  unfold added at h
  extract_lets src rest at h
  obtain ⟨returnType?, h⟩ : ∃ returnType?, rest returnType? = .ok (f, ws) := by
    split at h
    · exact ⟨none, h⟩
    · obtain ⟨type?, -, h⟩ := Error.bind_eq_ok h
      exact ⟨type?, h⟩
  obtain ⟨args, -, h⟩ := Error.bind_eq_ok h
  extract_lets g at h
  have hplain : Function.AddedByRule
      { g with attrs := FlagSet.ofList [.added, .finalInTargetLang] } := ⟨rfl, rfl, rfl⟩
  have hstatic := hplain.insertIf a.isStatic (a := .static) (by decide)
  have hreversed := (hstatic.insertIf a.isConst (a := .const) (by decide)).reverseOperator d
  split at h
  next f₁ ws₁ hreverse =>
  have hreversed : f₁.AddedByRule := by
    rw [show f₁ = (d.reverseOperator g).1 by rw [hreverse]]
    exact hreversed
  split at h
  · cases h
    exact ⟨hreversed.added, hreversed.abstract, hreversed.settled?⟩
  · extract_lets c f₂ mods args f₃ at h
    cases h
    have hstatic := hreversed.insertIf c.isNamespace (a := .static) (by decide)
    have hfinished : f₃.AddedByRule := ⟨hstatic.added, hstatic.abstract, hstatic.settled?⟩
    exact hfinished.addedKind c

end Assembly
end BindingModel
