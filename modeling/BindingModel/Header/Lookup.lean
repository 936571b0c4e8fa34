import BindingModel.Error
import BindingModel.Header.Basic

/-! Looking up scopes and typedefs of a header, and expanding typedefs. -/
namespace BindingModel.Header

/-- A place in the tree of scopes. -/
inductive Scope
  | ofNamespace (n : NamespaceDecl)
  | ofClass (c : ClassDecl)
  deriving Inhabited

namespace Scope

def decls : Scope → Declarations
  | ofNamespace n => n.decls
  | ofClass c => c.decls

def classes : Scope → List ClassDecl
  | ofNamespace n => n.classes
  | ofClass c => c.classes

/-- The class of that name; template arguments in a class's name do not count. -/
def findClass? (s : Scope) (name : String) : Option ClassDecl :=
  s.classes.find? fun c => Text.withoutArguments c.name == name

/-- The nested namespace, or else the nested class, of that name. -/
def child? (s : Scope) (name : String) : Option Scope :=
  let nested? := match s with
    | ofNamespace n => n.namespaces.find? (·.name == name)
    | ofClass _ => none
  match nested? with
  | some n => some (ofNamespace n)
  | none => (s.findClass? name).map ofClass

/-- The scope reached by a path of names. -/
def descend? (s : Scope) : List String → Option Scope
  | [] => some s
  | name :: path => (s.child? name).bind (·.descend? path)

end Scope

namespace Declarations

def findTypedef? (d : Declarations) (name : String) : Option TypedefDecl :=
  d.typedefs.find? (·.name == name)

def findEnum? (d : Declarations) (name : String) : Option EnumDecl :=
  d.enums.find? (·.name == name)

def functionsNamed (d : Declarations) (name : String) : List FunctionDecl :=
  d.functions.filter (·.name == name)

end Declarations

/-- The scope at a path; the empty path is the global scope. -/
def findScope? (h : Header) (path : List String) : Option Scope :=
  (Scope.ofNamespace h.global).descend? path

def findClass? (h : Header) (path : List String) : Option ClassDecl :=
  match h.findScope? path with
  | some (.ofClass c) => some c
  | _ => none

/-- The prefixes of a path, longest first. -/
def enclosing : List String → List (List String)
  | [] => [[]]
  | name :: path => (enclosing path).map (name :: ·) ++ [[]]

/-- The typedef that a name means inside a scope, searched innermost first. -/
def findTypedef? (h : Header) (name scope : List String) : Option TypedefDecl :=
  match name.getLast? with
  | none => none
  | some last => (enclosing scope).findSome? fun outer =>
    (h.findScope? (outer ++ name.dropLast)).bind (·.decls.findTypedef? last)

/-- Replace a name by its aliased type; `none` when no typedef applies or it names itself. -/
def expand? (h : Header) (scope : List String) (t : TypeExpr) : Option TypeExpr :=
  match h.findTypedef? t.name scope with
  | none => none
  | some d =>
    if d.target.name = t.name then none
    else
      let r := d.target.combine t
      some (if t.args.isEmpty then r else { r with args := t.args })

/-- Expand with `n` steps left of `limit`. -/
def expandAll (h : Header) (scope : List String) (limit : Nat) :
    Nat → TypeExpr → Except Error TypeExpr
  | 0, _ => .error (.recursionLimit limit)
  | n + 1, t =>
    match h.expand? scope t with
    | none => .ok t
    | some u => expandAll h scope limit n u

/-- Expand the typedefs in the name of a type, as seen from a scope, by fewer than `limit` steps. -/
def resolve (h : Header) (t : TypeExpr) (scope : List String) (limit : Nat) :
    Except Error TypeExpr :=
  h.expandAll scope limit limit t

end BindingModel.Header
