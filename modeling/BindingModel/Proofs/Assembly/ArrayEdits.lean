import BindingModel.Proofs.Assembly.ArgumentEdits
import BindingModel.Proofs.FlagSet
import BindingModel.Proofs.Lookup.Arrays

/-! How often the type of an argument is marked as an array. No type is marked when it is bound; then
every modification of the function that marks the argument counts. -/
namespace BindingModel
open Api

namespace Api

namespace BoundType
variable {t : BoundType}

/-- A pointer that is marked is spelled as before, however often it is marked. -/
theorem signature_marked (h : t.element? = none ∨ t.usage = .nativePointerAsArray) :
    t.marked.signature = t.signature := by
  obtain ⟨entry, c, v, p, r, args, element?, count?, usage, written, template?⟩ := t
  unfold marked
  split
  · rfl
  · cases element? with
    | none => simp [signature, String.append_assoc]
    | some e =>
      obtain rfl : usage = .nativePointerAsArray := h.resolve_left (Option.some_ne_none e)
      simp [signature]

theorem signature_iterate_marked (h : t.Unmarked) (n : Nat) :
    (marked^[n] t).signature = t.signature := by
  by_cases hpointer : t.pointers = 0
  · rw [iterate_marked_of_pointers hpointer]
  · have hstep : ∀ n, (marked^[n] t).element? = none ∨
        (marked^[n] t).usage = .nativePointerAsArray := by
      intro n
      cases n with
      | zero => exact .inl (h.element.resolve_right fun h => hpointer h.1)
      | succ n =>
        have hpointers := ((MarkedTimes.unmarked h).iterate hpointer n).2
        rw [Function.iterate_succ_apply']
        exact .inr (isArrayOf_marked (hpointers ▸ hpointer) 0).1
    induction n with
    | zero => rfl
    | succ n ih => rw [Function.iterate_succ_apply', signature_marked (hstep n), ih]

end BoundType

namespace Function

theorem signature_congr {f g : Function} (hname : f.declaredName = g.declaredName)
    (hargs : f.args.map (·.type.signature) = g.args.map (·.type.signature))
    (hconst : f.has .const = g.has .const) : f.signature = g.signature := by
  unfold signature
  rw [hname, hargs, hconst]

end Function

theorem ClassStore.modsOf_eq_of_signature {s : ClassStore} {db : Database} {f g : Function}
    (himplementing : f.implementing? = g.implementing?) (hsignature : f.signature = g.signature) :
    s.modsOf db f = s.modsOf db g := by
  unfold modsOf
  rw [himplementing, hsignature]

end Api

/-! ### Bound types -/

namespace Lookup

theorem unmarked_of_bindAt {l : Lookup} {class? : Option ClassId} {scope : List String} {n : Nat}
    {t : TypeExpr} {b : BoundType} (h : l.bindAt class? scope n t = .ok b) : b.Unmarked := by
  induction n generalizing t b with
  | zero => cases h
  | succ n ih =>
    have hwritten : ∀ {u}, l.bindWritten (l.bindAt class? scope n) class? u = .ok b →
        b.Unmarked := by
      intro u hu
      by_cases hdims : u.dims = []
      · obtain ⟨_, _, _, _, _, rfl⟩ :=
          (bindWritten_eq_ok_iff (params?_of_bindWritten hu) hdims).mp hu
        exact BoundType.unmarked_decided (.inl rfl)
      · obtain ⟨x, hx, hnested⟩ := nested_of_bindWritten hdims hu
        generalize l.countsOf u = counts at hnested
        cases hnested with
        | nil => exact ih hx
        | cons => exact BoundType.unmarked_decided (.inr ⟨rfl, rfl⟩)
    unfold bindAt at h
    split at h
    · next hb =>
      cases h
      exact hwritten hb
    · cases h
    · split at h
      · cases h
      · split at h
        · cases h
        · split at h
          · cases h
          · exact hwritten h

theorem unmarked_of_bindType {l : Lookup} {class? : Option ClassId} {scope : List String}
    {t : TypeExpr} {b : BoundType} (h : l.bindType t class? scope = .ok b) : b.Unmarked :=
  unmarked_of_bindAt h

end Lookup

namespace Assembly
open Header

/-! ### Edits -/

/-- The modifications mark each argument of a function so often as they say. -/
def MarkedBy (mods : List FunctionMod) (args : List Argument) : Prop :=
  ∀ k b, args[k]? = some b →
    ∃ t : BoundType, t.Unmarked ∧ b.type = BoundType.marked^[marksAt mods k] t

theorem MarkedBy.nil {args : List Argument} (h : ∀ a ∈ args, a.type.Unmarked) : MarkedBy [] args :=
  fun _ b hb => ⟨b.type, h b (List.mem_of_getElem? hb), rfl⟩

theorem signature_editArguments (mods : List FunctionMod) (class? : Option BoundClass)
    {f : Function} (h : ∀ a ∈ f.args, a.type.Unmarked) :
    (editArguments mods class? f).1.signature = f.signature := by
  refine Function.signature_congr rfl (List.ext_getElem? fun k => ?_) rfl
  rw [List.getElem?_map, List.getElem?_map]
  cases ha : f.args[k]? with
  | none =>
    have hlength := length_editArguments mods class? f
    rw [List.getElem?_eq_none_iff, ← hlength, ← List.getElem?_eq_none_iff] at ha
    rw [ha]
  | some a =>
    obtain ⟨b, hb, hedit⟩ := editArguments_edited mods class? f ha
    rw [hb, Option.map_some, Option.map_some, hedit.type,
      BoundType.signature_iterate_marked (h a (List.mem_of_getElem? ha))]

theorem markedBy_editArguments (mods : List FunctionMod) (class? : Option BoundClass)
    {f : Function} (h : ∀ a ∈ f.args, a.type.Unmarked) :
    MarkedBy mods (editArguments mods class? f).1.args := by
  intro k b hb
  obtain ⟨a, ha⟩ : ∃ a, f.args[k]? = some a := by
    have hk := (List.getElem?_eq_some_iff.mp hb).1
    rw [length_editArguments] at hk
    exact ⟨_, List.getElem?_eq_getElem hk⟩
  obtain ⟨b', hb', hedit⟩ := editArguments_edited mods class? f ha
  obtain rfl := Option.some.inj (hb.symm.trans hb')
  exact ⟨a.type, h a (List.mem_of_getElem? ha), hedit.type⟩

theorem signature_editFunctions (mods : List FunctionMod) (f : Function) :
    (editFunctions mods f).signature = f.signature := by
  refine List.foldlRecOn (motive := fun g : Function => g.signature = f.signature) mods
    editFunction rfl ?_
  intro g hg m _
  have hconst : (editFunction g m).has .const = g.has .const := by
    unfold editFunction Function.has
    rw [FlagSet.has_insertIf]
    split
    · simp [FlagSet.has_insert]
    · split <;> simp [FlagSet.has_erase]
  have hsame : (editFunction g m).signature = g.signature :=
    Function.signature_congr rfl rfl hconst
  exact hsame.trans hg

/-! ### Functions of declarations -/

namespace Draft
variable {d : Draft} {f : FunctionDecl} {g : Function}

theorem unmarked_bindArguments {key : String} {i : Nat} {l : List ArgumentDecl}
    {args : List Argument} {ws : List Warning} (h : d.bindArguments key i l = .ok (args, ws)) :
    ∀ a ∈ args, a.type.Unmarked := by
  induction l generalizing i args ws with
  | nil =>
    cases h
    exact fun a ha => absurd ha List.not_mem_nil
  | cons p l ih =>
    unfold bindArguments at h
    split at h
    · next type htype =>
      obtain ⟨⟨rest, more⟩, hrest, h⟩ := Error.bind_eq_ok h
      cases h
      exact List.forall_mem_cons.mpr ⟨Lookup.unmarked_of_bindType htype, ih hrest⟩
    · cases h
      exact fun a ha => absurd ha List.not_mem_nil
    · cases h

theorem unmarked_varargs (d : Draft) (f : FunctionDecl) (i : Nat) :
    ∀ a ∈ d.varargs f i, a.type.Unmarked := by
  intro a ha
  unfold varargs at ha
  split at ha
  · obtain ⟨entry, -, rfl⟩ := Option.map_eq_some_iff.mp (Option.mem_toList.mp ha)
    exact BoundType.unmarked_decided (.inl rfl)
  · cases ha

/-- The modifications of the edited function are those that edited it. -/
theorem markedBy_modsOf (s : ClassStore) (db : Database) (class? : Option BoundClass)
    (kind : Function → Api.FunctionKind) {f : Function} (h : ∀ a ∈ f.args, a.type.Unmarked) :
    let g := (editArguments (s.modsOf db f) class? f).1
    MarkedBy (s.modsOf db { g with kind := kind g }) g.args := by
  intro g
  have hmarked : MarkedBy (s.modsOf db f) g.args := markedBy_editArguments _ class? h
  have hsignature : g.signature = f.signature := signature_editArguments _ class? h
  have himplementing : g.implementing? = f.implementing? := rfl
  have hmods : s.modsOf db { g with kind := kind g } = s.modsOf db f :=
    ClassStore.modsOf_eq_of_signature himplementing hsignature
  rwa [hmods]

theorem markedBy_finish {f : Function} (h : ∀ a ∈ f.args, a.type.Unmarked) :
    MarkedBy (d.lookup.store.modsOf d.lookup.db (d.finish f).1) (d.finish f).1.args := by
  unfold finish
  cases d.class? with
  | some c => exact markedBy_modsOf _ _ d.classOf? d.assignmentKind (f := f.setOwner c) h
  | none => exact markedBy_modsOf _ _ d.classOf? d.assignmentKind h

theorem markedBy_bind (h : (d.bind f).1 = .built g) :
    MarkedBy (d.lookup.store.modsOf d.lookup.db g) g.args := by
  unfold bind at h
  dsimp only at h
  split at h
  · cases h
  · split at h
    · cases h
    · next args ws hargs =>
      cases h
      refine markedBy_finish fun a ha => ?_
      rcases List.mem_append.mp ha with ha | ha
      · exact unmarked_bindArguments hargs a ha
      · exact unmarked_varargs d f _ a ha

theorem markedBy_judge {skipDeprecated : Bool} (h : (d.judge skipDeprecated f).1 = .built g) :
    MarkedBy (d.lookup.store.modsOf d.lookup.db g) g.args := by
  unfold judge at h
  split at h
  · next verdict hscreen =>
    obtain rfl : verdict = .built g := h
    exact absurd hscreen (screen?_ne_built _ _ f _ g)
  · exact markedBy_bind h

/-! ### Functions of rules -/

theorem unmarked_bindAdded {i : Nat} {l : List AddedArgument} {args : List Argument}
    (h : d.bindAdded i l = .ok args) : ∀ a ∈ args, a.type.Unmarked := by
  induction l generalizing i args with
  | nil =>
    cases h
    exact fun a ha => absurd ha List.not_mem_nil
  | cons a l ih =>
    unfold bindAdded at h
    obtain ⟨type, htype, h⟩ := Error.bind_eq_ok h
    obtain ⟨rest, hrest, h⟩ := Error.bind_eq_ok h
    cases h
    refine List.forall_mem_cons.mpr ⟨?_, ih hrest⟩
    unfold bindNamed at htype
    split at htype
    · next hbound =>
      cases htype
      exact Lookup.unmarked_of_bindType hbound
    · cases htype

theorem args_reverseOperator {f : Function} {ws : List Warning}
    (h : d.reverseOperator f = (g, ws)) : g.args.Sublist f.args := by
  obtain rfl : (d.reverseOperator f).1 = g := by rw [h]
  unfold reverseOperator
  split
  · split
    · exact .refl _
    · exact .refl _
    · next first second hargs =>
      split
      · rw [hargs]
        exact .cons_cons first (.cons second .slnil)
      · exact .refl _
    · exact .refl _
  · exact .refl _

/-- Nothing marks the arguments of a function that a rule adds. -/
theorem unmarked_added {a : AddedFunction} {ws : List Warning} (h : d.added a = .ok (g, ws)) :
    ∀ b ∈ g.args, b.type.Unmarked := by
  have hsame : ∀ {args args' : List Argument}, args'.map (·.type) = args.map (·.type) →
      (∀ b ∈ args, b.type.Unmarked) → ∀ b ∈ args', b.type.Unmarked := by
    intro args args' hmap hargs b hb
    have hmem : b.type ∈ args'.map (·.type) := List.mem_map_of_mem hb
    rw [hmap] at hmem
    obtain ⟨a, ha, htype⟩ := List.mem_map.mp hmem
    exact htype ▸ hargs a ha
  unfold added at h
  extract_lets src rest at h
  obtain ⟨returnType?, h⟩ : ∃ returnType?, rest returnType? = .ok (g, ws) := by
    split at h
    · exact ⟨none, h⟩
    · obtain ⟨type?, -, h⟩ := Error.bind_eq_ok h
      exact ⟨type?, h⟩
  obtain ⟨args, hargs, h⟩ := Error.bind_eq_ok h
  extract_lets f at h
  split at h
  next f₁ ws₁ hreverse =>
  have hbound : ∀ b ∈ f₁.args, b.type.Unmarked := fun b hb =>
    unmarked_bindAdded hargs b ((args_reverseOperator hreverse).subset hb)
  split at h
  · cases h
    exact hsame (map_fixArgumentNames (fun _ _ _ => rfl) []) hbound
  · next i hsome =>
    extract_lets c f₂ mods args f₃ at h
    cases h
    have hkind : (addedKind c f₃).args = f₃.args := by
      unfold addedKind
      split
      · split <;> rfl
      · rfl
    have hdefaults : args.map (·.type) = f₂.args.map (·.type) := by
      refine map_mapIdx_of_eq fun i a => ?_
      unfold replaceDefault
      split <;> rfl
    rw [hkind]
    exact hsame ((map_fixArgumentNames (fun _ _ _ => rfl) mods).trans hdefaults) hbound

end Draft

/-! ### Free functions -/

/-- The arguments of a free function are marked by the global modifications for it, or not at all. -/
def MarkedGlobally (db : Database) (f : Function) : Prop :=
  MarkedBy (db.globalModsFor f.signature) f.args ∨ ∀ a ∈ f.args, a.type.Unmarked

theorem MarkedGlobally.congr {db db' : Database} {f g : Function} (h : MarkedGlobally db f)
    (hmods : db'.globalMods = db.globalMods) (hargs : g.args = f.args)
    (hsignature : g.signature = f.signature) : MarkedGlobally db' g := by
  unfold MarkedGlobally Database.globalModsFor at h ⊢
  rwa [hmods, hargs, hsignature]

theorem markedGlobally_judge {s t : State} {env : Env} {d : FunctionDecl} {f : Function}
    (h : s.judge env {} d = (.built f, t)) : MarkedGlobally s.db f := by
  obtain ⟨-, himplementing, -⟩ := judge_made h
  have hmarked := Draft.markedBy_judge (State.verdict_judge h)
  have hmods : s.store.modsOf s.db f = s.db.globalModsFor f.signature := by
    unfold ClassStore.modsOf ClassStore.follow?
    rw [himplementing]
    rfl
  exact .inl (hmods ▸ hmarked)

end Assembly
end BindingModel
