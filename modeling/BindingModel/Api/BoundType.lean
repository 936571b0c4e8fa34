import BindingModel.Rule.Entry

/-! Types bound to entries of the rule database. -/
namespace BindingModel.Api

/-- How a generator has to treat the values of a type. -/
inductive Usage
  | invalid
  | primitive
  | flags
  | enumeration
  | value
  | object
  | qObject
  | valuePointer
  | nativePointer
  | nativePointerAsArray
  | container
  | smartPointer
  | varargs
  | array
  deriving DecidableEq, Repr, Inhabited

instance : Spelled Usage where
  table :=
    [(.invalid, "Invalid"), (.primitive, "Primitive"), (.flags, "Flags"), (.enumeration, "Enum"),
     (.value, "Value"), (.object, "Object"), (.qObject, "QObject"), (.valuePointer, "ValuePointer"),
     (.nativePointer, "NativePointer"), (.nativePointerAsArray, "NativePointerAsArray"),
     (.container, "Container"), (.smartPointer, "SmartPointer"), (.varargs, "Varargs"),
     (.array, "Array")]

/-- A use of an entry with qualifiers, indirections and template arguments. An array has its element
type; the count is unknown for an unbound dimension. -/
structure BoundType where
  entry : Entry
  isConst : Bool := false
  isVolatile : Bool := false
  pointers : Nat := 0
  ref : RefKind := .none
  args : List BoundType := []
  element? : Option BoundType := none
  count? : Option Int := none
  usage : Usage := .invalid
  /-- The spelling in the declaration. -/
  written : String := ""
  /-- The template's type that this one was substituted for. -/
  template? : Option BoundType := none
  deriving Repr, Inhabited

namespace BoundType

def name (t : BoundType) : String := t.entry.name

def isVoid (t : BoundType) : Bool := t.entry.isKind .void && t.pointers == 0

def isConstReference (t : BoundType) : Bool := t.isConst && t.ref == .lvalue

/-- The usage of an entry behind some indirections. -/
def usageOf (e : Entry) (pointers : Nat) : Usage :=
  let byValue := pointers == 0
  match e.kind with
  | .varargs => .varargs
  | .void => if byValue then .primitive else .nativePointer
  | .primitive => if byValue then .primitive else .nativePointer
  | .flags => if byValue then .flags else .nativePointer
  | .enumeration | .enumValue => if byValue then .enumeration else .nativePointer
  | .container => if byValue then .container else .nativePointer
  | .smartPointer => if byValue then .smartPointer else .nativePointer
  | .object | .interface =>
    if pointers ≤ 1 then
      if e.rules?.any (·.isQObject) then .qObject else .object
    else .nativePointer
  | .value =>
    if pointers == 1 then .valuePointer else if byValue then .value else .nativePointer
  | .templateArgument | .custom | .typedef => if byValue then .value else .nativePointer
  | .namespaceScope | .function | .array => .nativePointer

/-- Settle the usage from the other parts. -/
def decided (t : BoundType) : BoundType :=
  { t with usage := if t.element?.isSome then .array else usageOf t.entry t.pointers }

/-- Attach a template argument to a kind of entry that takes them. -/
def addArgument (t arg : BoundType) : Except Error BoundType :=
  if t.entry.kind.takesArguments then .ok { t with args := t.args ++ [arg] }
  else .error (.invalidInstantiation t.entry.name)

def arrayOf (entry : Entry) (element : BoundType) (count? : Option Int) : BoundType :=
  { entry, element? := some element, count? }

def countText : Option Int → String
  | some n => "[" ++ toString n ++ "]"
  | none => "[]"

mutual

/-- The spelling by which modifications find a type, such as `const QList<int>&`. -/
def signature : BoundType → String
  | ⟨entry, c, v, p, r, args, none, _, _, _, _⟩ =>
    TypeExpr.cvText c v ++ entry.name ++ argsSignature args ++ TypeExpr.stars p ++ r.text
  | ⟨entry, c, v, p, r, args, some element, count?, usage, _, _⟩ =>
    TypeExpr.cvText c v ++
      if usage = .nativePointerAsArray then
        entry.name ++ argsSignature args ++ TypeExpr.stars p ++ r.text
      else element.signature ++ countText count?

def argsSignature : List BoundType → String
  | [] => ""
  | t :: ts => "<" ++ t.signature ++ restSignature ts ++ ">"

def restSignature : List BoundType → String
  | [] => ""
  | t :: ts => "," ++ t.signature ++ restSignature ts

end

/-- Turn `T*` into an array of `T` of unknown size. -/
def asArray (t : BoundType) : Except Error BoundType :=
  if t.pointers = 0 then .error (.notAPointer t.signature)
  else
    let element := decided { t with pointers := t.pointers - 1, ref := .none }
    .ok { t with element? := some element, count? := none, usage := .nativePointerAsArray }

mutual

/-- Both are spelled with the same kinds and names of entries. -/
def equal : BoundType → BoundType → Bool
  | ⟨e, c, v, p, r, args, element?, count?, _, _, _⟩,
    ⟨e', c', v', p', r', args', element?', count?', _, _, _⟩ =>
    e.kind == e'.kind && e.name == e'.name && c == c' && v == v' && p == p' && r == r' &&
      equalList args args' && equalOption element? element?' && count? == count?'

def equalList : List BoundType → List BoundType → Bool
  | [], [] => true
  | t :: ts, u :: us => equal t u && equalList ts us
  | _, _ => false

def equalOption : Option BoundType → Option BoundType → Bool
  | none, none => true
  | some t, some u => equal t u
  | _, _ => false

end

instance : BEq BoundType := ⟨equal⟩

end BoundType
end BindingModel.Api
