import BindingModel.Assembly.DefaultValue
import BindingModel.Assembly.Warning
import BindingModel.Api.Function

/-! What modifications do to a function and to its arguments. -/
namespace BindingModel.Assembly
open Api

/-- All argument modifications in order. -/
def argumentMods (mods : List FunctionMod) : List ArgumentMod := mods.flatMap (·.args)

/-- Change the argument at a position from 1; other positions change nothing. -/
def editArgument (position : Nat) (f : Argument → Argument) (args : List Argument) :
    List Argument :=
  match position with
  | 0 => args
  | i + 1 => args.modify i f

/-- Rename arguments as told and name the unnamed ones by their position. -/
def fixArgumentNames (mods : List FunctionMod) (args : List Argument) : List Argument :=
  let renamed := (argumentMods mods).foldl (fun args m =>
    match m.newName? with
    | some name =>
      editArgument m.index (fun a => { a with declaredName := a.name, name }) args
    | none => args) args
  renamed.mapIdx fun i a => if a.name = "" then { a with name := s!"arg__{i + 1}" } else a

/-- The last default that replaces the one at a position, and whether one is removed there. -/
def defaultChange (mods : List FunctionMod) (position : Nat) : Option String × Bool :=
  let here := (argumentMods mods).filter (·.index == position)
  (here.foldl (fun r m => m.replacedDefault?.or r) none, here.any (·.removesDefault))

/-- Settle the default of an argument at a position. -/
def fixArgumentDefault (mods : List FunctionMod) (class? : Option BoundClass) (position : Nat)
    (a : Argument) : Argument :=
  let (replaced?, removed) := defaultChange mods position
  match a.declaredDefault? with
  | none => if removed then a else { a with default? := replaced?.or a.default? }
  | some expression =>
    let fixed := fixDefault expression a.type class?
    { a with
      declaredDefault? := some fixed
      default? := if removed then none else some (replaced?.getD fixed) }

/-- The argument at a position has a default but no name, and gets none. -/
def lacksName (mods : List FunctionMod) (position : Nat) (a : Argument) : Bool :=
  a.declaredDefault?.isSome && a.default?.isSome && a.name == "" &&
    !(argumentMods mods).any fun m => m.index == position && m.newName?.isSome

/-- Mark removal, ownership and arrays. An argument that is no pointer is not made an array. -/
def markArgument (className : String) (args : List Argument) (m : ArgumentMod) :
    List Argument × List Warning :=
  let args := editArgument m.index (fun a =>
    { a with removed := a.removed || m.removed, ownership? := m.ownership?.or a.ownership? }) args
  match m.isArray, m.index with
  | true, i + 1 =>
    match args[i]? with
    | some a =>
      match a.type.asArray with
      | .ok type => (args.modify i fun a => { a with type }, [])
      | .error e => (args, [.arrayModification className e])
    | none => (args, [])
  | _, _ => (args, [])

def markArguments (className : String) (mods : List FunctionMod) (args : List Argument) :
    List Argument × List Warning :=
  (argumentMods mods).foldl (fun (args, ws) m =>
    let (args, more) := markArgument className args m
    (args, ws ++ more)) (args, [])

/-- Apply what modifications say of policies and arguments. -/
def editArguments (mods : List FunctionMod) (class? : Option BoundClass) (f : Function) :
    Function × List Warning :=
  let className := (class?.map (·.qualifiedName)).getD ""
  let policies := mods.foldl (fun p m => m.policies.orElse p) f.policies
  let named := !f.isOperator && f.kind != .signal
  let args := f.args.mapIdx fun i a => fixArgumentDefault mods class? (i + 1) a
  let unnamed := (args.mapIdx fun i a =>
    if named && lacksName mods (i + 1) a then
      [Warning.defaultWithoutName (i + 1) className f.signature]
    else []).flatten
  let (args, ws) := markArguments className mods args
  ({ f with policies, args := fixArgumentNames mods args }, unnamed ++ ws)

/-- Apply one modification to the function as a whole. -/
def editFunction (f : Function) (m : FunctionMod) : Function :=
  let attrs :=
    if m.isFinal then f.attrs.insert .finalInTargetLang
    else if m.isNonFinal then f.attrs.erase .finalInTargetLang
    else f.attrs
  { f with
    name := if m.isRenamed then m.newName?.getD f.name else f.name
    visibility := match m.access? with
      | some .priv => .priv
      | some .prot => .prot
      | some .pub => .pub
      | some .friendly => .friendly
      | none => f.visibility
    attrs := attrs.insertIf m.isDeprecated .deprecated }

def editFunctions (mods : List FunctionMod) (f : Function) : Function := mods.foldl editFunction f

end BindingModel.Assembly
