import BindingModel.Assembly.Edit
import BindingModel.Assembly.State

/-! Functions of the model made from declarations. -/
namespace BindingModel.Assembly
open Api Header

/-- What becomes of a declaration. -/
inductive Verdict
  | built (f : Function)
  | ignored
  | rejected (r : RejectRecord)

def declSignature (d : FunctionDecl) : String :=
  d.name ++ "(" ++ Text.joinWith "," (d.args.map (·.type.text)) ++ ")"

/-- The key of a function in the rejection log. -/
def declKey (d : FunctionDecl) (className : String) : String :=
  d.returnType.text ++ " " ++ (if className = "" then "" else className ++ "::") ++ declSignature d

/-- The kind of a function inside a class. A function named after the class is a constructor; it
copies or moves when it takes a reference to the class and nothing else without default. -/
def kindInClass (d : FunctionDecl) (className : String) : Api.FunctionKind :=
  let kind := FunctionKind.ofDecl d.kind
  let kind :=
    if kind = .normal ∧ Text.withoutArguments d.name = className then .constructor else kind
  match kind, d.args with
  | .constructor, a :: rest =>
    if a.type.localName = className ∧ a.type.pointers = 0 ∧ rest.all (·.default?.isSome) then
      match a.type.ref with
      | .lvalue => .copyConstructor
      | .rvalue => .moveConstructor
      | .none => .constructor
    else .constructor
  | kind, _ => kind

def attrsOf (s : FlagSet Specifier) : FlagSet FunctionAttr :=
  let isVirtual := s.has .virtual || s.has .abstract
  FlagSet.insertIf {} (s.has .const) .const
    |>.insertIf (s.has .abstract) .abstract
    |>.insertIf isVirtual .virtual
    |>.insertIf (isVirtual && s.has .override) .override
    |>.insertIf (isVirtual && s.has .final) .finalCpp
    |>.insertIf (!isVirtual || s.has .static) .finalInTargetLang
    |>.insertIf (s.has .invokable) .invokable
    |>.insertIf (s.has .static) .static
    |>.insertIf (s.has .explicit) .explicit
    |>.insertIf (s.has .deprecated) .deprecated

/-- Functions that meta object macros declare. -/
def isMetaObjectHelper (name className : String) : Bool :=
  name == "qt_check_for_QGADGET_macro" || "qt_meta".toList.isPrefixOf name.toList ||
    (name == "metaObject" && className != "QObject")

/-- Declarations that are left out for what they are or for what the rules say. -/
def screen? (db : Database) (skipDeprecated : Bool) (d : FunctionDecl)
    (class? : Option BoundClass) : Option Verdict :=
  let className := (class?.map (·.qualifiedName)).getD ""
  let key := declKey d className
  let byRule (rule : String) : Verdict := .rejected ⟨key, .generationDisabled, some rule⟩
  let rejection (kind : RejectionKind) (name : String) := db.rejection? kind className name
  if d.specifiers.has .deleted || !d.templateParams.isEmpty then some .ignored
  else if class?.isSome && isMetaObjectHelper d.name className then some .ignored
  else
    match (rejection .function d.name).or (rejection .function (declSignature d)) with
    | some rule => some (byRule rule)
    | none =>
      if d.specifiers.has .friend then some .ignored
      else
        match (rejection .returnType d.returnType.text).or
            (d.args.findSome? fun a => rejection .argumentType a.type.text) with
        | some rule => some (byRule rule)
        | none =>
          if d.specifiers.has .deprecated && skipDeprecated then
            some (.rejected ⟨key, .deprecated, none⟩)
          else none

/-- What the types of a declaration are bound in. -/
structure Draft where
  lookup : Lookup
  path : List String
  class? : Option ClassId

namespace Draft

def bindType (d : Draft) (t : TypeExpr) : Except Error BoundType :=
  d.lookup.bindType t d.class? d.path

def classOf? (d : Draft) : Option BoundClass := d.class?.map d.lookup.store.get

def className (d : Draft) : String := (d.classOf?.map (·.qualifiedName)).getD ""

/-- The target language side of the class is generated, or there is no class. -/
def isGenerated (d : Draft) : Bool :=
  match d.classOf? with
  | some c => d.lookup.db.generatesTargetLang c.entry
  | none => true

/-- Bind arguments from a position on. From one with a default that cannot be bound on they are
dropped with a warning. One without a default fails with a warning and the type. -/
def bindArguments (d : Draft) (key : String) :
    (i : Nat) → List ArgumentDecl → Except (Warning × String) (List Argument × List Warning)
  | _, [] => .ok ([], [])
  | i, a :: rest =>
    match d.bindType a.type, a.default? with
    | .ok type, _ => do
      let (args, ws) ← bindArguments d key (i + 1) rest
      .ok ({ Argument.make a.name type i with declaredDefault? := a.default? } :: args, ws)
    | .error e, some default =>
      .ok ([], if d.isGenerated then [.argumentStripped (i + 1) key a.type.text default e] else [])
    | .error e, none =>
      .error (.parameterTypeUnmatched (i + 1) key a.type.text e, a.type.text)

/-- A trailing `...`. -/
def varargs (d : Draft) (f : FunctionDecl) (i : Nat) : List Argument :=
  if f.specifiers.has .variadic then
    ((d.lookup.db.findType? "...").map fun entry =>
      Argument.make "" (BoundType.decided { entry }) i).toList
  else []

/-- An assignment takes the class by value or constant reference, a move assignment by `&&`. -/
def assignmentKind (d : Draft) (f : Function) : Api.FunctionKind :=
  match d.classOf?, f.args with
  | some c, [a] =>
    if f.declaredName = "operator=" ∧ a.type.entry.same c.entry ∧ a.type.pointers = 0 then
      match a.type.ref with
      | .none => .assignmentOperator
      | .lvalue => if a.type.isConst then .assignmentOperator else f.kind
      | .rvalue => .moveAssignmentOperator
    else f.kind
  | _, _ => f.kind

/-- Finish a function whose types are bound. -/
def finish (d : Draft) (f : Function) : Function × List Warning :=
  let f := match d.class? with
    | some c => f.setOwner c
    | none => f
  let (f, ws) := editArguments (d.lookup.store.modsOf d.lookup.db f) d.classOf? f
  ({ f with kind := d.assignmentKind f }, ws)

/-- Whether the function has a return type to bind. -/
def returns (kind : Api.FunctionKind) (f : FunctionDecl) : Bool :=
  match kind with
  | .destructor | .constructor | .copyConstructor | .moveConstructor => false
  | _ => !f.returnType.isVoid

/-- Make a function of a declaration that was not left out. -/
def bind (d : Draft) (f : FunctionDecl) : Verdict × List Warning :=
  let key := declKey f d.className
  let kind := match d.classOf? with
    | some c => kindInClass f c.name
    | none => FunctionKind.ofDecl f.kind
  let g := Function.make f.name kind
  let name := match d.classOf? with
    | some c => if g.isConstructor then c.name else f.name
    | none => f.name
  let returnType? : Except Error (Option BoundType) :=
    if returns kind f then some <$> d.bindType f.returnType else .ok none
  let args := match f.args with
    | [only] => if only.type.isVoid then [] else [only]
    | args => args
  match returnType? with
  | .error e =>
    (.rejected ⟨key, .unmatchedReturnType, none⟩, [.returnTypeUnmatched key f.returnType.text e])
  | .ok returnType? =>
    match d.bindArguments key 0 args with
    | .error (w, type) =>
      (.rejected ⟨key, .unmatchedArgumentType, some s!"unmatched parameter type '{type}'"⟩, [w])
    | .ok (args, ws) =>
      let (g, more) := d.finish { g with
        name
        attrs := attrsOf f.specifiers
        visibility := Visibility.ofAccess f.access
        exceptionSpec := f.exceptionSpec
        returnType?
        args := args ++ d.varargs f args.length }
      (.built g, ws ++ more)

/-- The verdict on a declaration. -/
def judge (d : Draft) (skipDeprecated : Bool) (f : FunctionDecl) : Verdict × List Warning :=
  match screen? d.lookup.db skipDeprecated f d.classOf? with
  | some verdict => (verdict, [])
  | none => d.bind f

end Draft

/-- The verdict on a declaration at a place, with its mark in the log. -/
def State.judge (s : State) (env : Env) (p : Place) (f : FunctionDecl) : Verdict × State :=
  let d : Draft := ⟨s.lookup env, p.path, p.class?⟩
  let (verdict, ws) := d.judge env.config.skipDeprecated f
  let s := s.warnAll ws
  match verdict with
  | .rejected r => (verdict, s.reject .functions r)
  | _ => (verdict, s)

end BindingModel.Assembly
