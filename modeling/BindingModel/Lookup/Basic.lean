import BindingModel.Api.ClassStore
import BindingModel.Header.Lookup
import BindingModel.Text.Integer

/-! What a name means inside a class: entries, classes and constants. -/
namespace BindingModel
open Api

/-- What names are looked up in. -/
structure Lookup where
  db : Database
  header? : Option Header := none
  store : ClassStore := {}
  /-- The classes that may be bases and hold enumerators. -/
  registry? : Option Registry := none
  globalEnums : List Enumeration := []
  maxScopeDepth : Nat := 64
  maxTemplateDepth : Nat := 100

namespace Lookup

/-- A scope and the scopes around it, innermost first, `n` at most. -/
def scopes : Nat → String → List String
  | 0, _ => []
  | n + 1, scope =>
    scope :: match Text.cutLast? [':', ':'] scope.toList with
      | some (outer, _) => scopes n (.ofList outer)
      | none => []

/-- The type of that name in a scope or in one around it. -/
def findInScopes? (l : Lookup) (name scope : String) : Option Entry :=
  ((scopes l.maxScopeDepth scope).takeWhile (· ≠ "")).findSome? fun s =>
    l.db.findType? (s ++ "::" ++ name)

/-- The class that a name means inside `context?`. A class of that unqualified name is accepted if
it is the only one. -/
def findClass? (l : Lookup) (name : String) (context? : Option ClassId) : Option ClassId :=
  l.registry?.bind fun r =>
    let name := Text.withoutArguments name
    let scoped? := context?.bind fun c =>
      (scopes l.maxScopeDepth (l.store.get c).qualifiedName).findSome? fun s =>
        r.findByName? l.store (s ++ "::" ++ name)
    match scoped?.or (r.findByName? l.store name) with
    | some c => some c
    | none =>
      match r.members.filter fun c => (l.store.get c).name == Text.localName name with
      | [c] => some c
      | _ => none

/-- The entry of a name in the scopes of a class or of its bases. -/
def findInClass? (l : Lookup) (name : String) (c : ClassId) : Option Entry :=
  (l.findInScopes? name (l.store.get c).qualifiedName).or <|
    (l.store.get c).baseNames.findSome? fun base =>
      (l.findClass? base (some c)).bind fun b =>
        l.findInScopes? name (l.store.get b).qualifiedName

/-- The entry that a name means: in the class, globally, as a flags alias, as a container, or as a
template parameter of the class. -/
def meaning? (l : Lookup) (name localName : String) (class? : Option ClassId) : Option Entry :=
  (class?.bind (l.findInClass? name)).or <|
    (l.db.findType? name).or <|
      (l.db.findFlags? name).or <|
        (l.db.findContainer? localName).or <|
          class?.bind fun c => (l.store.get c).templateParams.find? (·.name == name)

/-- Segments of ASCII letters, digits and underscores that begin with no digit. -/
def isIdentifier (s : String) : Bool :=
  (Text.segments s).all fun segment =>
    match segment.toList with
    | [] => false
    | c :: cs => (c.isAlpha || c == '_') && cs.all fun c => c.isAlphanum || c == '_'

/-- The value of a constant: an integer, a truth value or a known enumerator. What is not an
identifier counts as zero. -/
def value? (l : Lookup) (expression : String) : Option Int :=
  let s := Text.trim expression
  match Text.readInteger? s with
  | some v => some v
  | none =>
    if s = "true" then some 1
    else if s = "false" then some 0
    else if !isIdentifier s then some 0
    else
      let classEnums := match l.registry? with
        | some r => r.members.flatMap fun c => (l.store.get c).enums
        | none => []
      match (classEnums ++ l.globalEnums).findSome? (·.find? s) with
      | some v => some v.value
      | none =>
        ((l.db.named s).filter (·.isKind .enumValue)).findSome? fun e =>
          e.valueText?.bind Text.readInteger?

end Lookup
end BindingModel
