import BindingModel.Lookup.Basic

/-! Binding the types of a header to entries. -/
namespace BindingModel.Lookup
open Api

/-- A template argument that cannot be bound is named in the error, except at a limit. -/
def argumentError (t arg : TypeExpr) (position : Nat) : Error → Error
  | .recursionLimit n => .recursionLimit n
  | e => .unresolved t.text (.argument position arg.text e)

/-- Bind the template arguments from a position on and attach them. -/
def attachArguments (self : TypeExpr → Except Error BoundType) (t : TypeExpr) :
    (position : Nat) → BoundType → List TypeExpr → Except Error BoundType
  | _, b, [] => .ok b
  | i, b, arg :: args =>
    match self arg with
    | .error e => .error (argumentError t arg i e)
    | .ok a =>
      match b.addArgument a with
      | .error _ => .error (.unresolved t.text (.invalidInstantiation b.entry.name))
      | .ok b => attachArguments self t (i + 1) b args

/-- An array of constant characters, which is a string. -/
def isString (t : TypeExpr) : Bool :=
  t.dims.length == 1 && t.isConst && t.pointers == 0 && t.ref == .none && t.name == ["char"]

/-- Wrap the element in one array for each dimension, the last one innermost. -/
def wrapArrays (l : Lookup) (written : String) (element : BoundType) : List String → BoundType
  | [] => element
  | dim :: dims =>
    let inner := wrapArrays l written element dims
    let count? := if Text.trim dim = "" then none else l.value? dim
    { BoundType.arrayOf (.arrayOf inner.entry) inner count? with written }.decided

def bindArray (l : Lookup) (self : TypeExpr → Except Error BoundType) (t : TypeExpr) :
    Except Error BoundType :=
  if isString t then self { t with dims := [], pointers := 1 }
  else do
    let element ← self { t with dims := [] }
    pure (l.wrapArrays t.text element t.dims)

/-- Bind a type by its name as written; `self` binds the types inside it. -/
def bindWritten (l : Lookup) (self : TypeExpr → Except Error BoundType)
    (class? : Option ClassId) (t : TypeExpr) : Except Error BoundType :=
  if t.isFunctionPointer then .error (.unresolved t.text .functionPointer)
  else if t.isArray then l.bindArray self t
  else
    let isFlags := t.qualifiedName == "QFlags" && !t.args.isEmpty
    let name := if isFlags then t.instanceName else t.qualifiedName
    match l.meaning? name t.localName class? with
    | none => .error (.unresolved t.text (.unknownName name))
    | some entry => do
      let b : BoundType :=
        { entry, isConst := t.isConst, isVolatile := t.isVolatile, pointers := t.pointers,
          ref := t.ref, written := t.text }
      let b ← attachArguments self t 0 b (if isFlags then [] else t.args)
      pure b.decided

/-- Bind with `n` levels of nesting left. A type that cannot be bound as written is tried
once more with its typedefs expanded. -/
def bindAt (l : Lookup) (class? : Option ClassId) (scope : List String) :
    (n : Nat) → TypeExpr → Except Error BoundType
  | 0, _ => .error (.recursionLimit l.maxTemplateDepth)
  | n + 1, t =>
    match l.bindWritten (bindAt l class? scope n) class? t with
    | .ok b => .ok b
    | .error (.recursionLimit k) => .error (.recursionLimit k)
    | .error e =>
      match l.header? with
      | none => .error e
      | some h =>
        match h.resolve t scope l.maxScopeDepth with
        | .error e => .error e
        | .ok u =>
          if u = t then .error e
          else l.bindWritten (bindAt l class? scope n) class? u

/-- Bind a type as used inside a class, or globally, and inside a scope of the header. -/
def bindType (l : Lookup) (t : TypeExpr) (class? : Option ClassId) (scope : List String) :
    Except Error BoundType :=
  l.bindAt class? scope (l.maxTemplateDepth + 1) t

end BindingModel.Lookup
