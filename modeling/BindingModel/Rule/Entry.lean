import BindingModel.Rule.AddedFunction
import BindingModel.Rule.Modification
import BindingModel.Spelled

/-! Entries of the rule database: the types, scopes and values that rules describe. -/
namespace BindingModel

inductive EntryKind
  | primitive
  | void
  | varargs
  | flags
  | enumeration
  | enumValue
  | templateArgument
  | container
  | smartPointer
  | namespaceScope
  | value
  | object
  | interface
  | function
  | typedef
  | array
  | custom
  deriving DecidableEq, Repr, Inhabited

instance : Spelled EntryKind where
  table :=
    [(.primitive, "Primitive"), (.void, "Void"), (.varargs, "Varargs"), (.flags, "Flags"),
     (.enumeration, "Enum"), (.enumValue, "EnumValue"), (.templateArgument, "TemplateArgument"),
     (.container, "Container"), (.smartPointer, "SmartPointer"), (.namespaceScope, "Namespace"),
     (.value, "Value"), (.object, "Object"), (.interface, "Interface"), (.function, "Function"),
     (.typedef, "Typedef"), (.array, "Array"), (.custom, "Custom")]

namespace EntryKind

/-- Kinds that stand for a class or a typedef of one. -/
def isComplex : EntryKind → Bool
  | container | smartPointer | namespaceScope | value | object | interface | typedef => true
  | _ => false

/-- Kinds whose uses may carry template arguments. -/
def takesArguments : EntryKind → Bool
  | container | smartPointer | value | object | flags => true
  | _ => false

end EntryKind

/-- Kinds of entries that describe classes and namespaces. -/
inductive ClassKind
  | container
  | smartPointer
  | namespaceScope
  | value
  | object
  | interface
  deriving DecidableEq, Repr, Inhabited

instance : Spelled ClassKind where
  table :=
    [(.container, "container"), (.smartPointer, "smart_pointer"), (.namespaceScope, "namespace"),
     (.value, "value"), (.object, "object"), (.interface, "interface")]

def ClassKind.kind : ClassKind → EntryKind
  | container => .container
  | smartPointer => .smartPointer
  | namespaceScope => .namespaceScope
  | value => .value
  | object => .object
  | interface => .interface

/-- What the rules say about one class, apart from its function modifications. -/
structure ClassRules where
  fieldMods : List FieldMod := []
  added : List AddedFunction := []
  properties : List PropertyDecl := []
  docs : List DocMod := []
  isQObject : Bool := false
  isStream : Bool := false
  polymorphicId? : Option String := none
  defaultSuperclass? : Option String := none
  policies : Policies := {}
  deriving Repr, Inhabited

/-- What an entry is, with references to entries of type `α`. -/
inductive EntryDetail (α : Type)
  | void
  | varargs
  | custom
  | primitive
  | enumeration
  | enumValue (value : String) (enum? : Option α)
  | flags (aliasName : String) (enum? : Option α)
  | templateArgument (ordinal : Nat)
  | array (element : α)
  | function (signatures : List String)
  | typedef (source : String) (target : α)
  | complex (kind : ClassKind) (rules : ClassRules)
  deriving Repr, Inhabited

def EntryDetail.kind {α : Type} : EntryDetail α → EntryKind
  | void => .void
  | varargs => .varargs
  | custom => .custom
  | primitive => .primitive
  | enumeration => .enumeration
  | enumValue .. => .enumValue
  | flags .. => .flags
  | templateArgument _ => .templateArgument
  | array _ => .array
  | function _ => .function
  | typedef .. => .typedef
  | complex k _ => k.kind

/-- An entry as it was created. What changes later is kept by the database under the number `id?`;
an entry without number is known to no database. -/
structure Entry where
  id? : Option Nat
  name : String
  detail : EntryDetail Entry
  deriving Repr, Inhabited

namespace Entry

def kind (e : Entry) : EntryKind := e.detail.kind

def text (e : Entry) : String := Spelled.text e.kind ++ "(" ++ e.name ++ ")"

def localName (e : Entry) : String := Text.localName e.name

/-- Both are the same entry of a database. -/
def same (a b : Entry) : Bool := a.id?.isSome && a.id? == b.id?

/-- The rules of a class entry. -/
def rules? (e : Entry) : Option ClassRules :=
  match e.detail with
  | .complex _ r => some r
  | _ => none

def isComplex (e : Entry) : Bool := e.rules?.isSome

def isKind (e : Entry) (k : EntryKind) : Bool := e.kind == k

/-- The scope in which an enum is declared. -/
def enumQualifier? (e : Entry) : Option String :=
  match e.detail with
  | .enumeration => some (Text.qualifier e.name)
  | _ => none

def valueText? (e : Entry) : Option String :=
  match e.detail with
  | .enumValue v _ => some v
  | _ => none

/-- The enum of an enumerator or of flags. -/
def enum? (e : Entry) : Option Entry :=
  match e.detail with
  | .enumValue _ d | .flags _ d => d
  | _ => none

def flagsAlias? (e : Entry) : Option String :=
  match e.detail with
  | .flags a _ => some a
  | _ => none

def ordinal? (e : Entry) : Option Nat :=
  match e.detail with
  | .templateArgument n => some n
  | _ => none

def element? (e : Entry) : Option Entry :=
  match e.detail with
  | .array d => some d
  | _ => none

def signatures (e : Entry) : List String :=
  match e.detail with
  | .function ss => ss
  | _ => []

def typedefSource? (e : Entry) : Option String :=
  match e.detail with
  | .typedef s _ => some s
  | _ => none

def typedefTarget? (e : Entry) : Option Entry :=
  match e.detail with
  | .typedef _ t => some t
  | _ => none

/-- A function entry lists the signature. -/
def hasSignature (e : Entry) (signature : String) : Bool :=
  e.signatures.contains (Signature.normalize signature)

def fieldMod? (e : Entry) (name : String) : Option FieldMod :=
  e.rules?.bind fun r => r.fieldMods.find? (·.name == name)

/-- An array entry is named after its element. -/
def arrayOf (element : Entry) : Entry := ⟨none, element.name ++ "[]", .array element⟩

/-- A placeholder for a template parameter. -/
def placeholder (name : String) (ordinal : Nat) : Entry := ⟨none, name, .templateArgument ordinal⟩

end Entry
end BindingModel
