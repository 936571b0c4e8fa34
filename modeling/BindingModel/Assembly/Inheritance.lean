import BindingModel.Api.Substitution
import BindingModel.Assembly.Members

/-! Bases, interfaces and instances of templates. -/
namespace BindingModel.Assembly
open Api

/-! ### Finding a template -/

/-- What a search for a template came upon. -/
structure TemplateSearch where
  /-- The template with its name and arguments as found. -/
  found? : Option (ClassId × TypeExpr) := none
  /-- A container without class; the outermost counts. -/
  container? : Option Entry := none
  warnings : List Warning := []

namespace State

/-- The names to try for a template seen from a class, innermost scope first. -/
def templateNames (className written : String) : List String :=
  (Header.enclosing (Text.segments className).dropLast).map fun path =>
    Text.qualified (path ++ [written])

def templateNamed? (s : State) (name : String) : Option ClassId :=
  (s.templates.find? fun i => (s.store.get i).qualifiedName == name).or
    (s.registry.findByName? s.store name)

/-- Try names for a template until one is known. -/
def searchTemplate (s : State) (written : String) : List String → TemplateSearch
  | [] => {}
  | name :: names =>
    match TypeExpr.parse name with
    | .error e =>
      let r := s.searchTemplate written names
      { r with warnings := .unreadableTemplate name written e :: r.warnings }
    | .ok t =>
      match s.templateNamed? t.qualifiedName with
      | some i => { found? := some (i, t) }
      | none =>
        let r := s.searchTemplate written names
        { r with container? := r.container?.or (s.db.findContainer? t.qualifiedName) }

end State

/-! ### Instances -/

/-- What a typedef takes over from its template. -/
def inheritedAttrs : List ClassAttr :=
  [.hasCloneOperator, .hasEqualsOperator, .hasHashFunction, .hasNonPrivateConstructor,
   .hasPrivateDestructor, .hasProtectedDestructor, .hasVirtualDestructor]

/-- The entry of a template argument. A number gets an entry, for which no code is generated. -/
def argumentEntry (s : State) (c template : ClassId) (name : String) : Option Entry × State :=
  if name ≠ "" ∧ name.toList.all (·.isDigit) then
    match s.db.findType? name with
    | some e => (some e, s)
    | none =>
      let (e, db) := s.db.add name (.enumValue name none)
      (some e, { s with db := db.setCodegen e noCode })
  else
    let scopes := [c, template] ++ (s.store.enclosing? c).toList
    let names := scopes.map (fun i => (s.store.get i).qualifiedName ++ "::" ++ name) ++ [name]
    (names.findSome? s.db.findType?, s)

/-- Bind the arguments of an instance. One without entry is skipped with a warning. -/
def bindArguments (c template : ClassId) (t : TypeExpr) :
    List TypeExpr → State → List BoundType × State
  | [], s => ([], s)
  | a :: rest, s =>
    match argumentEntry s c template a.qualifiedName with
    | (none, s) =>
      bindArguments c template t rest (s.warn (.templateArgumentIgnored a.qualifiedName t.text))
    | (some entry, s) =>
      let b : BoundType := { entry, isConst := a.isConst, ref := a.ref, pointers := a.pointers }
      let (bs, s) := bindArguments c template t rest s
      (b.decided :: bs, s)

/-- Warn of a type that was nested too deep. -/
def warnUninstantiable (env : Env) (s : State) : Uninstantiable → State
  | .tooDeep t => s.warn (.substitutionTooDeep t.signature env.config.maxTemplateDepth)
  | _ => s

/-- Replace the placeholders in the types of a function. -/
def instantiateFunction (bindings : List BoundType) (maxDepth : Nat) (f : Function) :
    Except Uninstantiable Function := do
  let returnType? ← f.returnType?.mapM (BoundType.instantiate bindings maxDepth)
  let args ← f.args.mapM fun a => do
    pure { a with type := ← BoundType.instantiate bindings maxDepth a.type }
  pure { f with returnType?, args }

/-- Make arrays of the arguments that the modifications mark. -/
def markArrays (className templateName : String) (mods : List FunctionMod) (args : List Argument) :
    List Argument × List Warning :=
  ((argumentMods mods).filter (·.isArray)).foldl (fun (args, ws) m =>
    match m.index with
    | 0 => (args, ws)
    | i + 1 =>
      match args[i]? with
      | none => (args, ws)
      | some a =>
        match a.type.asArray with
        | .ok type => (args.modify i fun a => { a with type }, ws)
        | .error e => (args, ws ++ [.specialization className templateName e])) (args, [])

/-- The instance of a function in a class. A constructor takes the name of the class. -/
def adaptFunction (i : ClassId) (c : BoundClass) (f : Function) : Function :=
  let f := f.setOwner i
  if f.isConstructor then { f with name := c.name, declaredName := c.name } else f

/-- The function is taken over from a template, unless the class has one of that name. Constructors
are taken over by typedefs only. -/
def takesOver (s : State) (c : BoundClass) (f : Function) : Bool :=
  !s.store.isRemoved s.db f && !c.hasFunction f.name && (!f.isConstructor || c.isTypedef)

/-- Take over a function of a template with its modifications. -/
def inheritFunction (env : Env) (i : ClassId) (template : BoundClass) (bindings : List BoundType)
    (s : State) (f : Function) : State :=
  let c := s.store.get i
  if takesOver s c f then
    match instantiateFunction bindings env.config.maxTemplateDepth f with
    | .error e => warnUninstantiable env s e
    | .ok g =>
      let g := adaptFunction i c g
      let mods := (s.store.modsOf s.db f).map (·.forSignature g.signature)
      let s := s.modifyDatabase fun db => mods.foldl (·.addMod c.entry ·) db
      let (args, ws) := markArrays c.name template.name (s.store.modsOf s.db g) g.args
      (s.warnAll ws).modifyClass i (·.addFunction { g with args })
  else s

/-- Take over a field of a template, unless it is static or the class has one of that name. -/
def inheritField (env : Env) (i : ClassId) (template : BoundClass) (bindings : List BoundType)
    (s : State) (f : Field) : State :=
  let removed := (template.entry.fieldMod? f.name).any (·.isRemoved)
  if removed || f.isStatic || ((s.store.get i).findField? f.name).isSome then s
  else
    match BoundType.instantiate bindings env.config.maxTemplateDepth f.type with
    | .error e => warnUninstantiable env s e
    | .ok type => s.modifyClass i (·.addField { f with type, enclosing? := some i })

/-- Make a class an instance of a template. -/
def inheritTemplate (env : Env) (i t : ClassId) (written : TypeExpr) (s : State) : State :=
  let template := s.store.get t
  let s := s.modifyClass i fun c =>
    if c.isTypedef then
      { c with attrs := c.attrs.insertAll (inheritedAttrs.filter template.has) }
    else c
  let (bindings, s) := bindArguments i t written written.args s
  let s := template.functions.foldl (inheritFunction env i template bindings) s
  let s := template.fields.foldl (inheritField env i template bindings) s
  s.modifyClass i fun c =>
    let c := c.setTemplateBase t (bindings.map (·.entry))
    let c := (s.store.interfaces t).foldl (·.addInterface ·) c
    match s.store.base? t with
    | some b => c.setBase b
    | none => c

/-! ### Bases -/

/-- Resolve the only base, which has template arguments; `settle` resolves the template's. -/
def resolveTemplateBase (env : Env) (settle : ClassId → State → State) (i : ClassId)
    (written : String) (s : State) : State :=
  let c := s.store.get i
  let r := s.searchTemplate written (State.templateNames c.qualifiedName written)
  let s := s.warnAll r.warnings
  match r.found?, r.container? with
  | some (t, found), _ =>
    let s := inheritTemplate env i t found (settle t s)
    s.modifyDatabase (·.setBaseContainer c.entry (s.store.get t).entry)
  | none, some container => s.modifyDatabase (·.setBaseContainer c.entry container)
  | none, none => s.warn (.unknownTemplateBase c.qualifiedName written)

/-- The classes that the base names mean, and the unknown ones. Excluded classes are no bases. -/
def findBases (env : Env) (s : State) (i : ClassId) (names : List String) :
    List ClassId × List Warning :=
  let named := names.filter fun n => (s.db.rejection? .excludeClass n "").isNone
  let found := named.map fun n => (n, s.findClass? env n (some i))
  (found.filterMap (·.2), found.filterMap fun (n, b?) =>
    if b?.isNone then some (.unknownBase (s.store.get i).qualifiedName n) else none)

/-- A base is the primary one, or an interface that brings its own. -/
def addBase (i : ClassId) (primary : Bool) (b : ClassId) (s : State) : State :=
  s.modifyClass i fun c =>
    if primary then c.setBase b
    else (s.store.interfaces b).foldl (·.addInterface ·) (c.addInterface b)

/-- Resolve the bases of a class. The last one that is no interface is the primary base. -/
def resolveBases (env : Env) (settle : ClassId → State → State) (i : ClassId) (s : State) : State :=
  let c := s.store.get i
  let byNames (s : State) : State :=
    let (bases, ws) := findBases env s i c.baseNames
    let isPrimary (b : ClassId) : Bool := !(s.store.get b).isInterface
    let candidates := bases.countP isPrimary
    let primary? := (bases.zipIdx.filter (isPrimary ·.1)).getLast?.map (·.2)
    let s := (s.warnAll ws).warnIf (candidates > 1)
      (.severalPrimaryBases c.qualifiedName candidates)
    bases.zipIdx.foldl (fun s (b, k) =>
      let s := if (s.store.get b).isNamespace then s else settle b s
      addBase i (primary? = some k) b s) s
  match c.baseNames with
  | [name] =>
    if name.toList.contains '<' then resolveTemplateBase env settle i name s else byNames s
  | _ => byNames s

/-- Resolve the bases of a class once, those of its bases first; `n` bounds the depth. -/
def settleFrom (env : Env) : (n : Nat) → ClassId → State → State
  | 0, _, s => s
  | n + 1, i, s =>
    if i ∈ s.settled then s
    else resolveBases env (settleFrom env n) i { s with settled := i :: s.settled }

/-- Resolve the bases of a class and of its bases. -/
def settle (env : Env) (i : ClassId) (s : State) : State :=
  settleFrom env (s.store.classes.size + 1) i s

/-- Resolve the bases of all classes but interfaces and namespaces. -/
def settleAll (env : Env) (s : State) : State :=
  s.registry.members.foldl (fun s i =>
    let c := s.store.get i
    if c.isInterface || c.isNamespace then s else settle env i s) s

end BindingModel.Assembly
