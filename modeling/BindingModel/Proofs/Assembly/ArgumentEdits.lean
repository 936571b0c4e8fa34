import BindingModel.Proofs.Api.ArrayMarks
import BindingModel.Proofs.Assembly.Labels
import Mathlib.Logic.Relation

/-! What the modifications of a function make of its arguments: the defaults are settled first, then
types are marked as arrays, and last come the names. -/
namespace BindingModel
namespace Api.BoundType
variable {t u : BoundType}

/-- Marking as an array, any number of times, turns one type into the other. -/
def Marked : BoundType → BoundType → Prop := Relation.ReflTransGen fun t u => t.asArray = .ok u

theorem asArray_eq_ok (h : t.asArray = .ok u) : u.entry = t.entry ∧ u.pointers = t.pointers := by
  obtain ⟨hpointer, rfl⟩ := asArray_eq_ok_iff.mp h
  unfold marked
  rw [if_neg hpointer]
  exact ⟨rfl, rfl⟩

/-- What is marked is still a use of the same entry, with the same indirections. -/
theorem Marked.same (h : t.Marked u) : u.entry = t.entry ∧ u.pointers = t.pointers := by
  induction h with
  | refl => exact ⟨rfl, rfl⟩
  | tail _ hstep ih =>
    obtain ⟨hentry, hpointers⟩ := asArray_eq_ok hstep
    exact ⟨hentry.trans ih.1, hpointers.trans ih.2⟩

/-- What is no pointer is never marked. -/
theorem Marked.eq_of_pointers (h : t.Marked u) (ht : t.pointers = 0) : u = t := by
  cases h.cases_head with
  | inl heq => exact heq.symm
  | inr hstep =>
    obtain ⟨v, hv, -⟩ := hstep
    exact absurd ht (asArray_eq_ok_iff.mp hv).1

theorem Marked.iterate (t : BoundType) (n : Nat) : t.Marked (marked^[n] t) := by
  induction n with
  | zero => exact .refl
  | succ n ih =>
    rw [Function.iterate_succ_apply']
    by_cases hpointer : (marked^[n] t).pointers = 0
    · rw [show (marked^[n] t).marked = marked^[n] t from if_pos hpointer]
      exact ih
    · exact ih.tail (asArray_eq_ok_iff.mpr ⟨hpointer, rfl⟩)

end Api.BoundType

namespace Assembly
open Api

section
variable {α : Type} {g : Argument → α} {args : List Argument}

theorem map_markArguments (hf : ∀ (a : Argument) removed ownership?,
      g { a with removed, ownership? } = g a)
    (ht : ∀ (a : Argument) type, g { a with type } = g a) (className : String)
    (mods : List FunctionMod) : (markArguments className mods args).1.map g = args.map g := by
  unfold markArguments
  refine List.foldlRecOn (motive := fun r : List Argument × List Warning =>
    r.1.map g = args.map g) _ _ rfl ?_
  intro r hr m _
  exact (map_markArgument hf ht className m).trans hr

theorem map_fixArgumentNames (hg : ∀ (a : Argument) name declaredName,
      g { a with name, declaredName } = g a) (mods : List FunctionMod) :
    (fixArgumentNames mods args).map g = args.map g := by
  unfold fixArgumentNames
  rw [map_mapIdx_of_eq]
  · refine List.foldlRecOn (motive := fun l : List Argument => l.map g = args.map g) _ _ rfl ?_
    intro l hl m _
    split
    · rw [map_editArgument _ fun a => hg a _ _]
      exact hl
    · exact hl
  · intro i a
    split
    · exact hg a _ a.declaredName
    · rfl

theorem exists_of_map_eq {args' : List Argument} (h : args'.map g = args.map g) {k : Nat}
    {a : Argument} (ha : args[k]? = some a) : ∃ b, args'[k]? = some b ∧ g b = g a := by
  have hk : (args'.map g)[k]? = some (g a) := by rw [h, List.getElem?_map, ha, Option.map_some]
  rw [List.getElem?_map] at hk
  exact Option.map_eq_some_iff.mp hk

end

/-! ### Arrays -/

/-- A modification marks the argument at a position from 0. -/
def marksArray (m : ArgumentMod) (k : Nat) : Bool := m.isArray && m.index == k + 1

/-- How often modifications mark the argument at a position from 0. -/
def marksAt (mods : List FunctionMod) (k : Nat) : Nat :=
  (argumentMods mods).countP (marksArray · k)

theorem marksArray_iff {m : ArgumentMod} {k : Nat} :
    marksArray m k = true ↔ m.isArray = true ∧ m.index = k + 1 := by
  simp [marksArray]

/-- Only the argument at the position of a modification changes its type. -/
theorem type_markArgument (className : String) (m : ArgumentMod) {args : List Argument} {k : Nat}
    {a : Argument} (ha : args[k]? = some a) :
    ∃ b, (markArgument className args m).1[k]? = some b ∧
      b.type = if marksArray m k then a.type.marked else a.type := by
  have hedit : (editArgument m.index (fun a => { a with
      removed := a.removed || m.removed
      ownership? := m.ownership?.or a.ownership? }) args).map (·.type) = args.map (·.type) :=
    map_editArgument m.index fun _ => rfl
  obtain ⟨b, hb, hsame⟩ := exists_of_map_eq hedit ha
  rw [← hsame]
  unfold markArgument
  dsimp only
  split
  · next i harray hindex =>
    by_cases hik : i = k
    · obtain rfl := hik
      rw [hb, if_pos (marksArray_iff.mpr ⟨harray, hindex⟩)]
      dsimp only
      split
      · next type htype =>
        refine ⟨{ b with type }, ?_, (BoundType.asArray_eq_ok_iff.mp htype).2⟩
        rw [List.getElem?_modify, hb]
        simp
      · next e he => exact ⟨b, hb, (BoundType.marked_of_asArray_error he).symm⟩
    · have hnot : marksArray m k = false := by simp [marksArray, hindex, hik]
      rw [hnot]
      refine ⟨b, ?_, rfl⟩
      split
      · split
        · rw [List.getElem?_modify, hb]
          simp [hik]
        · exact hb
      · exact hb
  · next hnone =>
    have hnot : marksArray m k = false := by
      by_contra hmarks
      obtain ⟨harray, hindex⟩ := marksArray_iff.mp (eq_true_of_ne_false hmarks)
      exact hnone k harray hindex
    rw [hnot]
    exact ⟨b, hb, rfl⟩

/-- What one edit after another marks is marked as often as edits mark it. -/
theorem type_foldl_marks {β : Type} {step : β → ArgumentMod → β} (args : β → List Argument) {k : Nat}
    {edits : List ArgumentMod} (hstep : ∀ r, ∀ m ∈ edits, ∀ a, (args r)[k]? = some a →
      ∃ b, (args (step r m))[k]? = some b ∧
        b.type = if marksArray m k then a.type.marked else a.type)
    (r : β) {a : Argument} (ha : (args r)[k]? = some a) :
    ∃ b, (args (edits.foldl step r))[k]? = some b ∧
      b.type = BoundType.marked^[edits.countP (marksArray · k)] a.type := by
  induction edits generalizing r a with
  | nil => exact ⟨a, ha, rfl⟩
  | cons m edits ih =>
    obtain ⟨b, hb, htype⟩ := hstep r m List.mem_cons_self a ha
    obtain ⟨c, hc, hrest⟩ := ih (fun r m hm => hstep r m (List.mem_cons_of_mem _ hm)) _ hb
    refine ⟨c, hc, hrest.trans ?_⟩
    rw [htype, List.countP_cons]
    split
    · exact (Function.iterate_succ_apply ..).symm
    · rfl

/-- Every edit that marks an argument counts. -/
theorem type_markArguments (className : String) (mods : List FunctionMod) {args : List Argument}
    {k : Nat} {a : Argument} (ha : args[k]? = some a) :
    ∃ b, (markArguments className mods args).1[k]? = some b ∧
      b.type = BoundType.marked^[marksAt mods k] a.type := by
  rw [marksAt, show markArguments className mods args = (argumentMods mods).foldl (fun r m =>
    ((markArgument className r.1 m).1, r.2 ++ (markArgument className r.1 m).2)) (args, []) from rfl]
  refine type_foldl_marks Prod.fst (fun _ m _ _ hc => ?_) (args, []) ha
  exact type_markArgument className m hc

/-! ### All edits -/

/-- What the modifications make of the argument at a position from 0, its name apart. -/
structure Edited (mods : List FunctionMod) (class? : Option BoundClass) (k : Nat)
    (a b : Argument) : Prop where
  index : b.index = a.index
  default? : b.default? = (fixArgumentDefault mods class? (k + 1) a).default?
  type : b.type = BoundType.marked^[marksAt mods k] a.type

theorem Edited.marked {mods : List FunctionMod} {class? : Option BoundClass} {k : Nat}
    {a b : Argument} (h : Edited mods class? k a b) : a.type.Marked b.type := by
  rw [h.type]
  exact .iterate a.type _

theorem marksAt_eq_zero {mods : List FunctionMod}
    (h : ∀ m ∈ mods, ∀ x ∈ m.args, x.isArray = false) (k : Nat) : marksAt mods k = 0 := by
  rw [marksAt, List.countP_eq_zero]
  intro x hx hmarks
  obtain ⟨m, hm, hx⟩ := List.mem_flatMap.mp hx
  exact Bool.false_ne_true ((h m hm x hx).symm.trans (marksArray_iff.mp hmarks).1)

theorem type_fixArgumentDefault (mods : List FunctionMod) (class? : Option BoundClass) (k : Nat)
    (a : Argument) : (fixArgumentDefault mods class? k a).type = a.type ∧
      (fixArgumentDefault mods class? k a).index = a.index := by
  unfold fixArgumentDefault
  dsimp only
  split
  · split <;> exact ⟨rfl, rfl⟩
  · exact ⟨rfl, rfl⟩

theorem length_editArguments (mods : List FunctionMod) (class? : Option BoundClass)
    (f : Function) : (editArguments mods class? f).1.args.length = f.args.length := by
  let className := (class?.map (·.qualifiedName)).getD ""
  let settled := f.args.mapIdx fun i a => fixArgumentDefault mods class? (i + 1) a
  let marked := (markArguments className mods settled).1
  have hnames : (fixArgumentNames mods marked).map (fun _ => ()) = marked.map fun _ => () :=
    map_fixArgumentNames (fun _ _ _ => rfl) mods
  have hmarks : marked.map (fun _ => ()) = settled.map fun _ => () :=
    map_markArguments (fun _ _ _ => rfl) (fun _ _ => rfl) className mods
  have hlength := congrArg List.length (hnames.trans hmarks)
  rw [List.length_map, List.length_map, List.length_mapIdx] at hlength
  exact hlength

/-- Every argument stays at its position. -/
theorem editArguments_edited (mods : List FunctionMod) (class? : Option BoundClass) (f : Function)
    {k : Nat} {a : Argument} (ha : f.args[k]? = some a) :
    ∃ b, (editArguments mods class? f).1.args[k]? = some b ∧ Edited mods class? k a b := by
  let className := (class?.map (·.qualifiedName)).getD ""
  let settled := f.args.mapIdx fun i a => fixArgumentDefault mods class? (i + 1) a
  obtain ⟨htype, hindex⟩ := type_fixArgumentDefault mods class? (k + 1) a
  have hsettled : settled[k]? = some (fixArgumentDefault mods class? (k + 1) a) := by
    rw [List.getElem?_mapIdx, ha, Option.map_some]
  obtain ⟨b, hb, hmarked⟩ := type_markArguments className mods hsettled
  let marked := (markArguments className mods settled).1
  have hkept : marked.map (fun a => (a.index, a.default?)) =
      settled.map fun a => (a.index, a.default?) :=
    map_markArguments (fun _ _ _ => rfl) (fun _ _ => rfl) className mods
  obtain ⟨b', hb', hsame⟩ := exists_of_map_eq hkept hsettled
  obtain rfl := Option.some.inj (hb.symm.trans hb')
  have hnamed : (fixArgumentNames mods marked).map (fun a => (a.index, a.default?, a.type)) =
      marked.map fun a => (a.index, a.default?, a.type) :=
    map_fixArgumentNames (fun _ _ _ => rfl) mods
  obtain ⟨c, hc, hfinal⟩ := exists_of_map_eq hnamed hb
  simp only [Prod.mk.injEq] at hsame hfinal
  refine ⟨c, hc, ?_, ?_, ?_⟩
  · rw [hfinal.1, hsame.1, hindex]
  · rw [hfinal.2.1, hsame.2]
  · rw [hfinal.2.2, hmarked, htype]

end Assembly
end BindingModel
