import BindingModel.Assembly.Members

/-! Free operators, which become members of the classes that they work on, and conversions. -/
namespace BindingModel.Assembly
open Api Header

/-- The class of an argument's type, as seen globally. -/
def classOfArgument? (env : Env) (s : State) (a : ArgumentDecl) : Option ClassId :=
  match (s.lookup env).bindType a.type none [] with
  | .ok t => if t.entry.isComplex then s.classOf? t.entry else none
  | .error _ => none

/-- Put a mark on the class of an argument's type. -/
def markClassOf (env : Env) (a : ArgumentDecl) (mark : ClassAttr) (s : State) : State :=
  match classOfArgument? env s a with
  | some i => s.modifyClass i (·.addAttr mark)
  | none => s

/-- A hash function of one argument makes its class hashable. -/
def markHashable (env : Env) (s : State) : State :=
  (env.header.global.decls.functionsNamed "qHash").foldl (fun s d =>
    match d.args with
    | [a] => markClassOf env a .hasHashFunction s
    | _ => s) s

/-- An output to the debug stream gives its class a text. -/
def markPrintable (env : Env) (s : State) : State :=
  (env.header.global.decls.functionsNamed "operator<<").foldl (fun s d =>
    match d.args with
    | [stream, a] =>
      if stream.type.text = "QDebug" ∧ a.type.pointers < 2 then
        markClassOf env a .hasToStringCapability s
      else s
    | _ => s) s

/-- The operators that become members, in the order in which they are taken up. -/
def binaryOperators : List String :=
  ["==", "!=", "<=", ">=", "<", "+", "/", "*", "-", "&", "|", "^", "~", ">"].map ("operator" ++ ·)

def streamOperators : List String := ["operator<<", "operator>>"]

/-- The global functions of some names, name by name. Those of an operator that is unary when it has
no arguments have some. -/
def operatorsNamed (d : Declarations) (names : List String) : List FunctionDecl :=
  names.flatMap fun name => (d.functionsNamed name).filter fun f =>
    !((name == "operator*" || name == "operator&") && f.args.isEmpty)

/-- The operator returns the class of its second argument, not the one of its first. -/
def returnsSecond (env : Env) (s : State) (d : FunctionDecl) (first second : ClassId) : Bool :=
  match (s.lookup env).bindType d.returnType none [] with
  | .ok t =>
    (t.entry.isKind .value || t.entry.isKind .object) && !t.entry.same (s.store.get first).entry &&
      t.entry.same (s.store.get second).entry
  | .error _ => false

/-- The class that an operator becomes a member of, and whether its first argument is the object. -/
def operatorHome? (env : Env) (s : State) (d : FunctionDecl) : Option (ClassId × Bool) :=
  match d.args with
  | [] => none
  | [only] => (classOfArgument? env s only).map (·, true)
  | a :: b :: _ =>
    let second? := (classOfArgument? env s b).map (·, false)
    match classOfArgument? env s a with
    | some first =>
      if s.db.generatesTargetLang (s.store.get first).entry then
        match second? with
        | some (second, _) =>
          if returnsSecond env s d first second then second? else some (first, true)
        | none => some (first, true)
      else second?
    | none => second?

/-- Number arguments by their position. -/
def reindex (args : List Argument) : List Argument := args.mapIdx fun i a => { a with index := i }

/-- Take the object away from the arguments of an operator: the first one, or else the last one. -/
def takeObject (objectFirst unary : Bool) (f : Function) : Function :=
  let object? := if objectFirst then f.args.head? else f.args.getLast?
  let byPointer := !unary && object?.any (·.type.pointers > 0)
  { f with
    args := reindex (if objectFirst then f.args.tail else f.args.dropLast)
    attrs := f.attrs.insertIf byPointer .pointerOperator
      |>.insertIf (!objectFirst) .reverseOperator }

/-- Make an operator a member of the class that it works on. -/
def addOperator (env : Env) (s : State) (d : FunctionDecl) : State :=
  if d.access ≠ .pub then s
  else
    match operatorHome? env s d with
    | none => s
    | some (home, objectFirst) =>
      match s.judge env ⟨some home, []⟩ d with
      | (.built f, s) =>
        if f.args.isEmpty then s
        else
          let f := takeObject objectFirst (d.args.length = 1) f
          let f := { f with kind := .normal, visibility := .pub }
          s.modifyClass home (·.addFunction (editFunctions (s.store.modsOf s.db f) f))
      | (_, s) => s

/-- Make a stream operator a member of the stream, or of the streamed class if no code is generated
for the stream. -/
def addStreamOperator (env : Env) (s : State) (d : FunctionDecl) : State :=
  match d.access, d.args with
  | .pub, [a, b] =>
    match classOfArgument? env s a, classOfArgument? env s b with
    | some stream, some streamed =>
      if !(s.store.get stream).isStream then s
      else
        match s.judge env ⟨some streamed, []⟩ d with
        | (.built f, s) =>
          match f.args with
          | [first, second] =>
            let inStream := s.db.generates (s.store.get stream).entry
            let home := if inStream then stream else streamed
            let f := Function.setOwner { f with
              kind := .globalScope
              visibility := .pub
              args := reindex (if inStream then [second] else [first])
              attrs := (f.attrs.insertIf (!inStream) .reverseOperator).insert .finalInTargetLang }
              home
            s.modifyClass home (·.addFunction (editFunctions (s.store.modsOf s.db f) f))
          | _ => s
        | (_, s) => s
    | _, _ => s
  | _, _ => s

/-- Take up all free operators. -/
def addOperators (env : Env) (s : State) : State :=
  let d := env.header.global.decls
  let s := (operatorsNamed d binaryOperators).foldl (addOperator env) s
  (operatorsNamed d streamOperators).foldl (addStreamOperator env) s

/-- File a conversion operator with the class that it converts to. -/
def addConversion (s : State) (r : FunctionRef) : State :=
  match s.store.function? r with
  | none => s
  | some f =>
    if f.conversionTarget?.isNone || s.store.isRemoved s.db f then s
    else
      match f.returnType?.bind fun t => s.classOf? t.entry with
      | some target => s.modifyClass target (·.addExternalConversion r)
      | none => s

def addConversions (s : State) (i : ClassId) : State :=
  (List.range (s.store.get i).functions.length).foldl (fun s k => addConversion s ⟨i, k⟩) s

end BindingModel.Assembly
