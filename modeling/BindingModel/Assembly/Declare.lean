import BindingModel.Assembly.Added
import BindingModel.Assembly.EnumScan

/-! The classes of the model: first pass over the declarations. -/
namespace BindingModel.Assembly
open Api Header

/-- The entry of a class, or why the class is kept out. -/
def classEntry (db : Database) (name : String) : Except (RejectReason × Option String) Entry :=
  match db.rejection? .excludeClass name "" with
  | some rule => .error (.generationDisabled, some rule)
  | none =>
    match db.findComplex? name with
    | some e => if (db.state e).codegen = noCode then .error (.generationDisabled, none) else .ok e
    | none =>
      if (db.findType? name).isSome then .error (.redefinedToNotClass, none)
      else .error (.notInTypeSystem, none)

/-- The properties that the header and the rules declare, and those that are unreadable. -/
def propertyTexts (className : String) (texts : List String) (decls : List PropertyDecl) :
    List PropertyText × List Warning :=
  let read := texts.map (fun t => (t, PropertyText.parse t)) ++
    decls.map fun d => (d.name, PropertyText.ofDecl d)
  (read.filterMap fun (_, r) => r.toOption,
    read.filterMap fun (t, r) => match r with
      | .ok _ => none
      | .error e => some (.unreadableProperty t className e))

/-- Bind the types of a class's properties. -/
def addProperties (env : Env) (p : Place) (c : ClassId) (texts : List String) (s : State) : State :=
  let cls := s.store.get c
  let name := cls.qualifiedName
  let (read, ws) := propertyTexts name texts ((cls.entry.rules?.map (·.properties)).getD [])
  let l := s.lookup env
  let bound := read.mapIdx fun i t =>
    match l.bindType t.type (some c) p.path with
    | .ok type => Except.ok (Property.ofText t type i)
    | .error _ => .error (Warning.propertyTypeUnknown t.type.text name)
  let s := (s.warnAll ws).warnAll (bound.filterMap fun
    | .ok _ => none
    | .error w => some w)
  s.modifyClass c fun x => { x with properties := x.properties ++ bound.filterMap (·.toOption) }

/-- Take up the enums of a class or namespace. -/
def addEnums (env : Env) (c : ClassId) (enums : List EnumDecl) (s : State) : State :=
  enums.foldl (fun s d =>
    match scanEnum env s (some c) d with
    | (some e, s) => s.modifyClass c fun x => { x with enums := x.enums ++ [e] }
    | (none, s) => s) s

/-- File a class inside another. -/
def adopt (parent c : ClassId) (s : State) : State :=
  let s := s.modifyClass c (·.setEnclosing parent)
  let s := s.modifyClass parent fun x => { x with inner := x.inner ++ [c] }
  s.addClass c

/-- Remember the class of a scope. -/
def openScope (key : String) (c : ClassId) (s : State) : State :=
  { s with scopes := (key, c) :: s.scopes }

/-- A typedef with a class entry is a class; one of a primitive tells what that is an alias of. -/
def declareTypedef (env : Env) (p : Place) (d : TypedefDecl) : Build (Option ClassId) := do
  let s ← get
  let name := p.qualify s.store (Text.withoutArguments d.name)
  match s.db.findPrimitive? name with
  | some primitive =>
    match d.target.name.head?.bind s.db.findPrimitive? with
    | some target =>
      if target.same primitive then pure ()
      else modify (·.modifyDatabase (·.setReferenced primitive target))
    | none => pure ()
    pure none
  | none =>
    match s.db.findComplex? name with
    | none => pure none
    | some entry =>
      let (c, s) := s.createClass (.typedef entry d.target.text)
      set (s.applyInclude env entry d.file?)
      fillAdded env p c
      pure (some c)

/-- The typedefs of a class or namespace, each filed by `file`. -/
def declareTypedefs (env : Env) (p : Place) (file : ClassId → State → State)
    (typedefs : List TypedefDecl) : Build Unit :=
  typedefs.forM fun d => do
    match ← declareTypedef env p d with
    | some c => modify (file c)
    | none => pure ()

mutual

/-- Create a class with everything declared inside it but fields and functions. -/
def declareClass (env : Env) (p : Place) : ClassDecl → Build (Option ClassId)
  | ⟨decls, classes, bases, templateParams, isFinal, properties⟩ => do
    let s ← get
    let localName := Text.withoutArguments decls.name
    let name := p.qualify s.store localName
    match classEntry s.db name with
    | .error (reason, detail?) =>
      modify (·.reject .classes ⟨name, reason, detail?⟩)
      pure none
    | .ok entry =>
      let new : BoundClass := {
        entry
        attrs := (FlagSet.ofList [.pub]).insertIf isFinal .finalCpp
          |>.insertIf (entry.rules?.any (·.isStream)) .stream
        baseNames := (bases.filter (·.access == .pub)).map (·.name)
        templateParams := templateParams.mapIdx fun i n => .placeholder n i }
      let (c, s) := s.createClass new
      set (addEnums env c decls.enums s)
      let inside := p.enter c localName
      declareInner env inside c classes
      declareTypedefs env inside (fun t s => (s.modifyClass t (·.setEnclosing c)).addClass t)
        decls.typedefs
      modify (addProperties env inside c properties)
      modify fun s => openScope (p.key localName) c (s.applyInclude env entry decls.file?)
      pure (some c)

/-- Create the classes inside a class or namespace. -/
def declareInner (env : Env) (p : Place) (parent : ClassId) : List ClassDecl → Build Unit
  | [] => pure ()
  | d :: ds => do
    match ← declareClass env p d with
    | some c => modify (adopt parent c)
    | none => pure ()
    declareInner env p parent ds

end

mutual

/-- Create the class of a namespace with everything declared inside it but fields and functions. -/
def declareNamespace (env : Env) (p : Place) : NamespaceDecl → Build (Option ClassId)
  | ⟨decls, classes, namespaces⟩ => do
    let s ← get
    let name := p.qualify s.store decls.name
    match s.db.rejection? .excludeClass name "", s.db.findNamespace? name with
    | some rule, _ =>
      modify (·.reject .classes ⟨name, .generationDisabled, some rule⟩)
      pure none
    | none, none =>
      modify (·.warn (.namespaceWithoutEntry name))
      pure none
    | none, some entry =>
      let (c, s) := s.createClass { entry }
      set (addEnums env c decls.enums s)
      let inside := p.enter c decls.name
      declareInner env inside c classes
      declareTypedefs env inside (adopt c) decls.typedefs
      declareNamespaces env inside c namespaces
      modify fun s => openScope (p.key decls.name) c (s.applyInclude env entry decls.file?)
      pure (some c)

def declareNamespaces (env : Env) (p : Place) (parent : ClassId) : List NamespaceDecl → Build Unit
  | [] => pure ()
  | d :: ds => do
    match ← declareNamespace env p d with
    | some c => modify (adopt parent c)
    | none => pure ()
    declareNamespaces env p parent ds

end

/-- Create a class for each typedef of the rules whose target has none. -/
def declareRuleTypedefs (env : Env) : Build Unit := do
  (← get).db.typedefs.forM fun e => do
    let s ← get
    match e.typedefTarget?, e.typedefSource? with
    | some target, some source =>
      if (s.classOf? target).isSome then pure ()
      else
        let (c, s) := s.createClass (.typedef target source)
        set s
        fillAdded env {} c
        modify (·.addClass c)
    | _, _ => pure ()

/-- Take up the enums of the global scope that are generated. -/
def addGlobalEnums (env : Env) (s : State) : State :=
  env.header.global.decls.enums.foldl (fun s d =>
    match scanEnum env s none d with
    | (some e, s) =>
      if s.db.generates e.entry then { s with globalEnums := s.globalEnums ++ [e] } else s
    | (none, s) => s) s

/-- The first pass over the whole header and the rules. -/
def declareAll (env : Env) : Build Unit := do
  let global := env.header.global
  let file (c? : Option ClassId) : Build Unit := do
    match c? with
    | some c => modify (·.addClass c)
    | none => pure ()
  global.classes.forM fun d => do file (← declareClass env {} d)
  global.namespaces.forM fun d => do file (← declareNamespace env {} d)
  modify (addGlobalEnums env)
  global.decls.typedefs.forM fun d => do file (← declareTypedef env {} d)
  declareRuleTypedefs env

end BindingModel.Assembly
