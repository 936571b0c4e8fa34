import BindingModel.Proofs.Assembly.ArgumentEdits
import BindingModel.Proofs.Assembly.Outcome

/-! The names of arguments after their renames. Each new name takes the place of the one before it,
which from then on counts as the declared one. -/
namespace BindingModel

/-- An edit of an argument that a function with so many has. -/
def ArgumentMod.isWithin (m : ArgumentMod) (arity : Nat) : Bool :=
  decide (0 < m.index) && decide (m.index ≤ arity)

namespace Api.Argument

/-- Under a new name, with the name so far as the declared one. -/
def rename (a : Argument) (name : String) : Argument := { a with declaredName := a.name, name }

theorem name_foldl_rename (names : List String) (a : Argument) :
    (names.foldl rename a).name = names.getLastD a.name := by
  induction names generalizing a with
  | nil => rfl
  | cons name names ih =>
    rw [List.foldl_cons, ih, List.getLastD_cons]
    rfl

/-- The name before the last counts as declared, whether it was declared or given. -/
theorem declaredName_foldl_rename (names : List String) (a : Argument) :
    (names.foldl rename a).declaredName = (a.name :: names).dropLast.getLastD a.declaredName := by
  induction names generalizing a with
  | nil => rfl
  | cons name names ih =>
    rw [List.foldl_cons, ih, List.dropLast_cons_of_ne_nil (List.cons_ne_nil name names),
      List.getLastD_cons]
    rfl

theorem foldl_rename (names : List String) (a : Argument) :
    names.foldl rename a =
      { a with
        name := (names.foldl rename a).name
        declaredName := (names.foldl rename a).declaredName } := by
  refine List.foldlRecOn (motive := fun b : Argument =>
    b = { a with name := b.name, declaredName := b.declaredName }) names rename rfl ?_
  intro b hb name _
  rw [hb]
  rfl

end Api.Argument

namespace Assembly
open Api Header

/-- The new names for the argument at a position from 1, in the order they are given. -/
def newNames (edits : List ArgumentMod) (position : Nat) : List String :=
  (edits.filter (·.index == position)).filterMap (·.newName?)

/-- What new names make of the argument at a position from 1. -/
structure Renamed (names : List String) (position : Nat) (a b : Argument) : Prop where
  /-- The last name given, or else the one it has; `arg__N` if that is empty. -/
  name : b.name =
    if names.getLastD a.name = "" then s!"arg__{position}" else names.getLastD a.name
  /-- The name before the last, or else the declared one. -/
  declaredName : b.declaredName = (a.name :: names).dropLast.getLastD a.declaredName
  rest : b = { a with name := b.name, declaredName := b.declaredName }

/-- Only a second new name that differs from the declared one hides that. -/
theorem Renamed.declaredName_eq_iff {names : List String} {position : Nat} {a b : Argument}
    (h : Renamed names position a b) (ha : a.declaredName = a.name) :
    b.declaredName = a.name ↔ names.length ≤ 1 ∨ names.dropLast.getLast? = some a.name := by
  rw [h.declaredName, ha]
  obtain rfl | ⟨before, last, rfl⟩ := names.eq_nil_or_concat'
  · simp
  · rw [← List.cons_append, List.dropLast_concat, List.dropLast_concat, List.getLastD_cons]
    obtain rfl | ⟨first, name, rfl⟩ := before.eq_nil_or_concat'
    · simp
    · simp [List.getLastD_eq_getLast?]

theorem getElem?_editArgument (position : Nat) (f : Argument → Argument) (args : List Argument)
    (k : Nat) : (editArgument position f args)[k]? =
      if position = k + 1 then args[k]?.map f else args[k]? := by
  unfold editArgument
  split
  · rw [if_neg (by omega)]
  · next i =>
    rw [List.getElem?_modify]
    by_cases hik : i = k
    · simp [hik]
    · simp [hik]

/-- What one edit does to the names. -/
def renameArgument (args : List Argument) (m : ArgumentMod) : List Argument :=
  match m.newName? with
  | some name => editArgument m.index (·.rename name) args
  | none => args

/-- An edit renames the argument at its position, if it names one. -/
theorem getElem?_renameArgument (args : List Argument) (m : ArgumentMod) (k : Nat) :
    (renameArgument args m)[k]? =
      args[k]?.map ((newNames [m] (k + 1)).foldl Argument.rename) := by
  unfold renameArgument newNames
  cases hname : m.newName? with
  | none => by_cases hindex : m.index = k + 1 <;> simp [hindex, hname]
  | some name =>
    by_cases hindex : m.index = k + 1 <;> simp [getElem?_editArgument, hindex, hname]

theorem newNames_cons (m : ArgumentMod) (edits : List ArgumentMod) (position : Nat) :
    newNames (m :: edits) position = newNames [m] position ++ newNames edits position := by
  unfold newNames
  rw [← List.singleton_append, List.filter_append, List.filterMap_append]

/-- Every position takes the new names that are meant for it, one after the other. -/
theorem getElem?_foldl_renameArgument (edits : List ArgumentMod) (args : List Argument)
    (k : Nat) : (edits.foldl renameArgument args)[k]? =
      args[k]?.map ((newNames edits (k + 1)).foldl Argument.rename) := by
  induction edits generalizing args with
  | nil => exact (Option.map_id' ..).symm
  | cons m edits ih =>
    rw [List.foldl_cons, ih, getElem?_renameArgument, Option.map_map, newNames_cons m edits]
    congr 1
    funext a
    exact List.foldl_append.symm

theorem newNames_filter_isWithin (edits : List ArgumentMod) {arity k : Nat} (hk : k < arity) :
    newNames (edits.filter (·.isWithin arity)) (k + 1) = newNames edits (k + 1) := by
  unfold newNames
  rw [List.filter_filter]
  congr 1
  apply List.filter_congr
  intro m _
  by_cases hindex : m.index = k + 1
  · have hwithin : m.isWithin arity = true := by
      simp [ArgumentMod.isWithin, hindex, Nat.succ_le_of_lt hk]
    rw [hwithin, Bool.and_true]
  · simp [hindex]

theorem length_fixArgumentNames (mods : List FunctionMod) (args : List Argument) :
    (fixArgumentNames mods args).length = args.length := by
  have hmap : (fixArgumentNames mods args).map (fun _ => ()) = args.map fun _ => () :=
    map_fixArgumentNames (fun _ _ _ => rfl) mods
  simpa using congrArg List.length hmap

theorem getElem?_fixArgumentNames (mods : List FunctionMod) (args : List Argument) (k : Nat) :
    (fixArgumentNames mods args)[k]? =
      args[k]?.map fun a =>
        let b := (newNames (argumentMods mods) (k + 1)).foldl Argument.rename a
        if b.name = "" then { b with name := s!"arg__{k + 1}" } else b := by
  change (((argumentMods mods).foldl renameArgument args).mapIdx _)[k]? = _
  rw [List.getElem?_mapIdx, getElem?_foldl_renameArgument, Option.map_map]
  rfl

theorem renamed_of_foldl_rename (names : List String) (position : Nat) (a : Argument) :
    let b := names.foldl Argument.rename a
    Renamed names position a (if b.name = "" then { b with name := s!"arg__{position}" } else b) := by
  have hname := Argument.name_foldl_rename names a
  have hdeclared := Argument.declaredName_foldl_rename names a
  have hrest := Argument.foldl_rename names a
  dsimp only
  split
  · next hempty =>
    rw [hname] at hempty
    exact ⟨(if_pos hempty).symm, hdeclared, by rw [hrest]⟩
  · next hempty =>
    rw [hname] at hempty
    exact ⟨hname.trans (if_neg hempty).symm, hdeclared, hrest⟩

/-- Whatever the modifications, no argument comes or goes and each takes the last new name for its
position; the name in the declaration stays with it as long as at most one new name is given, or the
one before the last is that name again. Edits for other positions change nothing. -/
theorem arguments_renamed (mods : List FunctionMod) (args : List Argument) :
    (fixArgumentNames mods args).length = args.length ∧
    (∀ k a, args[k]? = some a → ∃ b, (fixArgumentNames mods args)[k]? = some b ∧
      let names := newNames (argumentMods mods) (k + 1)
      Renamed names (k + 1) a b ∧
      (a.declaredName = a.name →
        (b.declaredName = a.name ↔
          names.length ≤ 1 ∨ names.dropLast.getLast? = some a.name))) ∧
    fixArgumentNames
      (mods.map fun m => { m with args := m.args.filter (·.isWithin args.length) }) args =
    fixArgumentNames mods args := by
  refine ⟨length_fixArgumentNames mods args, fun k a ha => ?_, ?_⟩
  · have hrenamed := renamed_of_foldl_rename (newNames (argumentMods mods) (k + 1)) (k + 1) a
    refine ⟨_, ?_, hrenamed, hrenamed.declaredName_eq_iff⟩
    rw [getElem?_fixArgumentNames, ha]
    rfl
  · apply List.ext_getElem?
    intro k
    rw [getElem?_fixArgumentNames, getElem?_fixArgumentNames]
    by_cases hk : k < args.length
    · have hedits : argumentMods
          (mods.map fun m => { m with args := m.args.filter (·.isWithin args.length) }) =
          (argumentMods mods).filter (·.isWithin args.length) := by
        unfold argumentMods
        rw [List.flatMap_map, List.filter_flatMap]
      rw [hedits, newNames_filter_isWithin _ hk]
    · rw [List.getElem?_eq_none (Nat.le_of_not_lt hk)]
      rfl

/-- One of two arguments is renamed; there is no third. -/
def stepRenames : List FunctionMod := [{
  target := .signature "add(int,int)"
  args := [{ index := 1, newName? := some "amount" }, { index := 3, newName? := some "rest" }] }]

def stepArguments : List Argument := [.make "step" default 0, .make "" default 1]

theorem arguments_renamed_step :
    ∃ b c, (fixArgumentNames stepRenames stepArguments)[0]? = some b ∧
      (fixArgumentNames stepRenames stepArguments)[1]? = some c ∧
      b.name = "amount" ∧ b.declaredName = "step" ∧ c.name = "arg__2" ∧ c.declaredName = "" := by
  obtain ⟨-, hpositions, -⟩ := arguments_renamed stepRenames stepArguments
  obtain ⟨b, hb, hfirst, hkept⟩ := hpositions 0 _ rfl
  obtain ⟨c, hc, hsecond, hempty⟩ := hpositions 1 _ rfl
  refine ⟨b, c, hb, hc, ?_, ?_, ?_, ?_⟩
  · exact hfirst.name.trans (by decide)
  · exact (hkept rfl).mpr (.inl (by decide))
  · exact hsecond.name.trans (by decide)
  · exact (hempty rfl).mpr (.inl (by decide))

/-- A function whose only argument is renamed by two modifications. -/
def counterRules : Database :=
  let (_, db) := Database.initial.add "int" .primitive
  let (counter, db) := db.add "Counter" (.complex .value {})
  let giving (newName : String) : FunctionMod := {
    target := .signature "add(int)"
    args := [{ index := 1, newName? := some newName }] }
  (db.addMod counter (giving "amount")).addMod counter (giving "delta")

def counterHeader : Header where
  global.classes := [{
    decls := {
      name := "Counter"
      functions := [{ name := "add", args := [{ name := "step", type := .ofName "int" }] }] } }]

/-- The first new name replaces the declared one where that is kept. -/
theorem declared_name_lost :
    ∃ m, (assemble .minimal counterHeader counterRules).result = .ok m ∧ ∃ c ∈ m.classes,
      (m.store.get c).qualifiedName = "Counter" ∧
      (m.store.get c).functions.map
          (fun f => (f.signature, f.args.map fun a => (a.name, a.declaredName))) =
        [("add(int)", [("delta", "amount")])] := by
  obtain ⟨m, hm, hcounter⟩ := exists_model_of_any (p := fun m => m.classes.any fun c =>
    decide ((m.store.get c).qualifiedName = "Counter") &&
    decide ((m.store.get c).functions.map
        (fun f => (f.signature, f.args.map fun a => (a.name, a.declaredName))) =
      [("add(int)", [("delta", "amount")])]))
    (show (assemble .minimal counterHeader counterRules).result.toOption.any _ = true by
      decide +kernel)
  simp only [List.any_eq_true, Bool.and_eq_true, decide_eq_true_eq] at hcounter
  exact ⟨m, hm, hcounter⟩

end Assembly
end BindingModel
