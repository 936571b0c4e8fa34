import BindingModel.Assembly.FunctionDraft

/-! Functions that only the rules declare. -/
namespace BindingModel.Assembly
open Api

namespace Draft

/-- Bind a type that a rule names. Where it fails, the rule is told which names it may mean. -/
def bindNamed (d : Draft) (t : TypeExpr) : Except Error BoundType :=
  match d.bindType t with
  | .ok b => .ok b
  | .error _ => .error (.typeNotFound t.qualifiedName (d.lookup.db.candidates t.localName))

def bindAdded (d : Draft) : (i : Nat) → List AddedArgument → Except Error (List Argument)
  | _, [] => .ok []
  | i, a :: rest => do
    let type ← d.bindNamed a.type
    let args ← bindAdded d (i + 1) rest
    let a := { Argument.make a.name type i with
      default? := a.default?
      declaredDefault? := a.default? }
    pure (a :: args)

/-- An operator with two arguments is a reverse one, whose second argument is the class. -/
def reverseOperator (d : Draft) (f : Function) : Function × List Warning :=
  if f.isOperator && f.declaredName != "operator()" then
    match f.args with
    | [] | [_] => (f, [])
    | [first, second] =>
      if d.classOf?.any (second.type.entry.same ·.entry) then
        ({ f with attrs := f.attrs.insert .reverseOperator, args := [first] }, [])
      else (f, [.operatorNotReverse])
    | _ => (f, [.operatorArity])
  else (f, [])

/-- Put a default in place of that of the argument at a position. -/
def replaceDefault (mods : List FunctionMod) (position : Nat) (a : Argument) : Argument :=
  match defaultChange mods position with
  | (some e, false) => { a with default? := some e, declaredDefault? := some e }
  | _ => a

/-- A function named after its class is a constructor. -/
def addedKind (c : BoundClass) (f : Function) : Function :=
  if f.name = c.name then
    match f.args with
    | [only] =>
      { f with
        kind := if only.type.entry.localName = f.name then .copyConstructor else .constructor
        attrs := f.attrs.insertIf (only.type.entry.isKind .custom) .explicit }
    | _ => { f with kind := .constructor }
  else f

/-- Make the function that a rule adds to the class, or to the global scope. -/
def added (d : Draft) (a : AddedFunction) : Except Error (Function × List Warning) := do
  let returnType? ←
    if a.returnType.isVoid then pure none else some <$> d.bindNamed a.returnType
  let args ← d.bindAdded 0 a.args
  let f : Function := { Function.make a.name .normal with
    attrs := FlagSet.ofList [.added, .finalInTargetLang]
      |>.insertIf a.isStatic .static |>.insertIf a.isConst .const
    visibility := if a.isProtected then .prot else .pub
    returnType?
    args }
  let (f, ws) := d.reverseOperator f
  match d.class? with
  | none => pure ({ f with args := fixArgumentNames [] f.args }, ws)
  | some i =>
    let c := d.lookup.store.get i
    let f := f.setOwner i
    let mods := d.lookup.store.modsOf d.lookup.db f
    let args := f.args.mapIdx fun i a => replaceDefault mods (i + 1) a
    let f := { f with
      args := fixArgumentNames mods args
      attrs := f.attrs.insertIf c.isNamespace .static }
    pure (addedKind c f, ws)

end Draft

/-- Make one added function; a failure names the function and the scope. -/
def makeAdded (env : Env) (p : Place) (class? : Option ClassId) (a : AddedFunction) :
    Build Function := do
  let s ← get
  let d : Draft := ⟨s.lookup env, p.path, class?⟩
  match d.added a with
  | .ok (f, ws) =>
    set (s.warnAll ws)
    pure f
  | .error e =>
    throw (.addedFunction a.name (if class?.isSome then d.className else "<global>") e)

/-- Append the functions that the rules add to a class. -/
def fillAdded (env : Env) (p : Place) (c : ClassId) : Build Unit := do
  let entry := ((← get).store.get c).entry
  match entry.rules? with
  | none => pure ()
  | some rules => rules.added.forM fun a => do
    let f ← makeAdded env p (some c) a
    modify (·.modifyClass c (·.addFunction f))

/-- Append the functions that the rules add to the global scope. -/
def fillGlobalAdded (env : Env) : Build Unit := do
  (← get).db.globalAdded.forM fun a => do
    let f ← makeAdded env {} none a
    modify fun s => { s with globalFunctions := s.globalFunctions ++ [f] }

end BindingModel.Assembly
