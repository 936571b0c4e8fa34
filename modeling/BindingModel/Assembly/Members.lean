import BindingModel.Assembly.Declare

/-! Fields and functions of the classes: second pass over the declarations. -/
namespace BindingModel.Assembly
open Api Header

/-- What becomes of a variable of a class or namespace. -/
inductive FieldVerdict
  | built (f : Field)
  | ignored
  | rejected (rule : String)
  | unmatched

/-- Apply a modification to a field that it does not remove. -/
def editField (m : FieldMod) (f : Field) : Field :=
  { f with
    name := m.newName?.getD f.name
    readable := m.flags.has .readable
    writable := m.flags.has .writable }

namespace Draft

/-- Make a field of a class; those of a namespace are static. -/
def field (d : Draft) (i : ClassId) (c : BoundClass) (v : VariableDecl) : FieldVerdict :=
  if v.isFriend || v.access = .priv then .ignored
  else
    match d.lookup.db.rejection? .field c.qualifiedName v.name with
    | some rule => .rejected rule
    | none =>
      match d.bindType v.type with
      | .error _ => .unmatched
      | .ok type =>
        let f : Field := {
          name := v.name
          declaredName := v.name
          type
          visibility := Visibility.ofAccess v.access
          isStatic := v.isStatic || c.isNamespace
          enclosing? := some i }
        match c.entry.fieldMod? v.name with
        | none => .built f
        | some m => if m.isRemoved then .ignored else .built (editField m f)

end Draft

/-- Take up a variable as a field of the class. -/
def addField (env : Env) (p : Place) (i : ClassId) (s : State) (v : VariableDecl) : State :=
  let c := s.store.get i
  match Draft.field ⟨s.lookup env, p.path, some i⟩ i c v with
  | .built f => s.modifyClass i (·.addField f)
  | .ignored => s
  | .rejected rule =>
    s.reject .fields ⟨c.qualifiedName ++ "::" ++ v.name, .generationDisabled, some rule⟩
  | .unmatched =>
    s.warnIf (s.db.generatesTargetLang c.entry) (.fieldTypeUnmatched c.name v.name v.type.text)

/-- The marks that a rejected constructor leaves on its class. -/
def rejectedMarks (c : BoundClass) (d : FunctionDecl) : List ClassAttr :=
  if d.kind = .constructor ∨ Text.withoutArguments d.name = c.name then
    if d.args.head?.all (·.default?.isSome) then
      [.hasRejectedConstructor, .hasRejectedDefaultConstructor]
    else [.hasRejectedConstructor]
  else []

/-- The marks that a destructor leaves on its class. -/
def destructorMarks (f : Function) : List ClassAttr :=
  (match f.visibility with
    | .priv => [.hasPrivateDestructor]
    | .prot => [.hasProtectedDestructor]
    | _ => []) ++
    if f.has .virtual then
      if f.visibility = .priv then [.hasVirtualDestructor] else [.hasVirtualDestructor, .forceShell]
    else []

/-- The marks that a member leaves on its class. -/
def memberMarks (f : Function) : List ClassAttr :=
  (if f.isEquals then [.hasEqualsOperator] else []) ++
    if f.has .abstract then [.abstract] else []

/-- Bind a function to the first property for which it plays a part. -/
def bindProperty (properties : List Property) (f : Function) : Function :=
  if f.kind = .signal then f
  else
    match properties.findSome? fun p => (p.role? f).map fun r => (p, r) with
    | some (p, r) => { f with attrs := f.attrs.insert r.attr, property? := some p }
    | none => f

/-- The name of the type after `operator`, without a reference and a leading `const`. -/
def conversionTypeName? (name : String) : Option String :=
  let word := "operator ".toList
  if word.isPrefixOf name.toList then
    let spelled := Text.trim (.ofList (name.toList.drop word.length))
    let spelled := Text.trim (.ofList (Text.dropEndWhile (· == '&') spelled.toList))
    let const := "const ".toList
    some (if const.isPrefixOf spelled.toList then .ofList (spelled.toList.drop const.length)
      else spelled)
  else none

/-- A conversion operator returns what its name says. -/
def fixConversion (db : Database) (f : Function) : Function :=
  match (conversionTypeName? f.declaredName).bind db.findType? with
  | some entry =>
    if f.conversionTarget?.isSome then
      { f with returnType? := some (BoundType.decided { entry }) }
    else f
  | none => f

/-- Finish a member that is neither a destructor nor a private constructor. -/
def finishMember (s : State) (c : BoundClass) (f : Function) : Function :=
  let f := bindProperty c.properties f
  fixConversion s.db (editFunctions (s.store.modsOf s.db f) f)

/-- Take up a function as a member of the class. Of destructors and of private constructors, only
the marks that they leave are kept. -/
def addMember (env : Env) (p : Place) (i : ClassId) (s : State) (d : FunctionDecl) : State :=
  let c := s.store.get i
  let mark (marks : List ClassAttr) (s : State) : State :=
    s.modifyClass i fun c => { c with attrs := c.attrs.insertAll marks }
  match s.judge env p d with
  | (.ignored, s) => s
  | (.rejected _, s) => mark (rejectedMarks c d) s
  | (.built f, s) =>
    let f := { f with attrs := f.attrs.insertIf c.isNamespace .static }
    if f.kind = .destructor then mark (destructorMarks f) s
    else if f.kind = .constructor ∧ d.access = .priv then mark [.hasPrivateConstructor] s
    else
      let f := finishMember s c f
      (mark (memberMarks f) s).modifyClass i (·.addFunction f)

/-- Take up what a class or namespace declares and what the rules add to it. -/
def addMembers (env : Env) (p : Place) (i : ClassId) (d : Declarations) : Build Unit := do
  modify fun s => d.vars.foldl (addField env p i) s
  modify fun s => d.functions.foldl (addMember env p i) s
  fillAdded env p i

/-- The class opened by a scope. -/
def State.classOfScope? (s : State) (key : String) : Option ClassId := s.scopes.lookup key

mutual

def fillClass (env : Env) (p : Place) : ClassDecl → Build Unit
  | ⟨decls, classes, _, _, _, _⟩ => do
    let name := Text.withoutArguments decls.name
    match (← get).classOfScope? (p.key name) with
    | none => pure ()
    | some c =>
      addMembers env (p.enter c name) c decls
      fillClasses env (p.enter c name) classes

def fillClasses (env : Env) (p : Place) : List ClassDecl → Build Unit
  | [] => pure ()
  | d :: ds => do
    fillClass env p d
    fillClasses env p ds

end

mutual

def fillNamespace (env : Env) (p : Place) : NamespaceDecl → Build Unit
  | ⟨decls, classes, namespaces⟩ => do
    match (← get).classOfScope? (p.key decls.name) with
    | none => pure ()
    | some c =>
      addMembers env (p.enter c decls.name) c decls
      fillClasses env (p.enter c decls.name) classes
      fillNamespaces env (p.enter c decls.name) namespaces

def fillNamespaces (env : Env) (p : Place) : List NamespaceDecl → Build Unit
  | [] => pure ()
  | d :: ds => do
    fillNamespace env p d
    fillNamespaces env p ds

end

/-- Take up a free function whose signature an entry lists. -/
def addGlobalFunction (env : Env) (s : State) (d : FunctionDecl) : State :=
  if d.access ≠ .pub ∨ isOperatorName d.name then s
  else
    match (s.db.findFunction? d.name).filter s.db.generates with
    | none => s
    | some entry =>
      match s.judge env {} d with
      | (.built f, s) =>
        if entry.hasSignature f.signature then
          let f := { editFunctions (s.store.modsOf s.db f) f with listedBy? := some entry }
          let s := s.applyInclude env entry d.file?
          { s with globalFunctions := s.globalFunctions ++ [f] }
        else s
      | (_, s) => s

/-- The second pass over the whole header. -/
def fillAll (env : Env) : Build Unit := do
  let global := env.header.global
  fillClasses env {} global.classes
  fillNamespaces env {} global.namespaces
  modify fun s => global.decls.functions.foldl (addGlobalFunction env) s

end BindingModel.Assembly
