import BindingModel.Api.Function

/-! Classes of the model and the links between them. -/
namespace BindingModel.Api

inductive ClassAttr
  | pub
  | finalCpp
  | finalInTargetLang
  | abstract
  | hasPrivateDestructor
  | hasProtectedDestructor
  | hasVirtualDestructor
  | forceShell
  | hasPrivateConstructor
  | hasNonPrivateConstructor
  | hasRejectedConstructor
  | hasRejectedDefaultConstructor
  | hasEqualsOperator
  | hasHashFunction
  | hasToStringCapability
  | hasCloneOperator
  | stream
  deriving DecidableEq, Repr

instance : Spelled ClassAttr where
  table :=
    [(.pub, "PUBLIC"), (.finalCpp, "FINAL_CPP_CLASS"), (.finalInTargetLang, "FINAL_IN_TARGET_LANG"),
     (.abstract, "ABSTRACT"), (.hasPrivateDestructor, "HAS_PRIVATE_DESTRUCTOR"),
     (.hasProtectedDestructor, "HAS_PROTECTED_DESTRUCTOR"),
     (.hasVirtualDestructor, "HAS_VIRTUAL_DESTRUCTOR"), (.forceShell, "FORCE_SHELL_CLASS"),
     (.hasPrivateConstructor, "HAS_PRIVATE_CONSTRUCTOR"),
     (.hasNonPrivateConstructor, "HAS_NON_PRIVATE_CONSTRUCTOR"),
     (.hasRejectedConstructor, "HAS_REJECTED_CONSTRUCTOR"),
     (.hasRejectedDefaultConstructor, "HAS_REJECTED_DEFAULT_CONSTRUCTOR"),
     (.hasEqualsOperator, "HAS_EQUALS_OPERATOR"), (.hasHashFunction, "HAS_HASH_FUNCTION"),
     (.hasToStringCapability, "HAS_TO_STRING_CAPABILITY"),
     (.hasCloneOperator, "HAS_CLONE_OPERATOR"), (.stream, "STREAM")]

/-- The function at a position of a class. -/
structure FunctionRef where
  owner : ClassId
  index : Nat
  deriving DecidableEq, Repr

structure BoundClass where
  entry : Entry
  attrs : FlagSet ClassAttr := .ofList [.pub]
  /-- Names of the base classes as written. -/
  baseNames : List String := []
  /-- Placeholders of the template parameters. -/
  templateParams : List Entry := []
  isTypedef : Bool := false
  /-- The primary base. -/
  base? : Option ClassId := none
  enclosing? : Option ClassId := none
  templateBase? : Option ClassId := none
  /-- The entries of the arguments of the template base. -/
  templateArgs? : Option (List Entry) := none
  interfaces : List ClassId := []
  functions : List Function := []
  fields : List Field := []
  enums : List Enumeration := []
  inner : List ClassId := []
  properties : List Property := []
  externalConversions : List FunctionRef := []
  deriving Repr, Inhabited

namespace BoundClass

/-- A typedef is a class whose only base is the aliased type. -/
def typedef (entry : Entry) (source : String) : BoundClass where
  entry := entry
  baseNames := [source]
  isTypedef := true

def name (c : BoundClass) : String := c.entry.localName

def qualifiedName (c : BoundClass) : String := c.entry.name

def has (c : BoundClass) (a : ClassAttr) : Bool := c.attrs.has a

def isTemplate (c : BoundClass) : Bool := !c.templateParams.isEmpty

def isNamespace (c : BoundClass) : Bool := c.entry.isKind .namespaceScope

def isInterface (c : BoundClass) : Bool := c.entry.isKind .interface

def isQObject (c : BoundClass) : Bool := c.entry.rules?.any (·.isQObject)

def isStream (c : BoundClass) : Bool := c.entry.rules?.any (·.isStream)

def polymorphicId? (c : BoundClass) : Option String := c.entry.rules?.bind (·.polymorphicId?)

def addAttr (c : BoundClass) (a : ClassAttr) : BoundClass := { c with attrs := c.attrs.insert a }

/-- Append a function; constructors leave their mark on the class. -/
def addFunction (c : BoundClass) (f : Function) : BoundClass :=
  let attrs :=
    if f.isConstructor then
      c.attrs.insert
        (if f.visibility = .priv then .hasPrivateConstructor else .hasNonPrivateConstructor)
    else c.attrs
  { c with attrs, functions := c.functions ++ [f] }

def findFunction? (c : BoundClass) (name : String) : Option Function :=
  c.functions.find? (·.name == name)

def functionsNamed (c : BoundClass) (name : String) : List Function :=
  c.functions.filter (·.name == name)

def hasFunction (c : BoundClass) (name : String) : Bool := c.functions.any (·.name == name)

def constructors (c : BoundClass) : List Function := c.functions.filter (·.isConstructor)

def copyConstructor? (c : BoundClass) : Option Function :=
  c.functions.find? (·.kind == .copyConstructor)

def addField (c : BoundClass) (f : Field) : BoundClass := { c with fields := c.fields ++ [f] }

def findField? (c : BoundClass) (name : String) : Option Field := c.fields.find? (·.name == name)

def findEnum? (c : BoundClass) (name : String) : Option Enumeration :=
  c.enums.find? (·.name == name)

/-- Set the primary base, once. -/
def setBase (c : BoundClass) (b : ClassId) : BoundClass := { c with base? := c.base?.or (some b) }

def setEnclosing (c : BoundClass) (e : ClassId) : BoundClass :=
  { c with enclosing? := c.enclosing?.or (some e) }

def setTemplateBase (c : BoundClass) (t : ClassId) (args : List Entry) : BoundClass :=
  { c with
    templateBase? := c.templateBase?.or (some t)
    templateArgs? := c.templateArgs?.or (some args) }

def addInterface (c : BoundClass) (i : ClassId) : BoundClass :=
  if i ∈ c.interfaces then c else { c with interfaces := c.interfaces ++ [i] }

def addExternalConversion (c : BoundClass) (r : FunctionRef) : BoundClass :=
  if r ∈ c.externalConversions then c
  else { c with externalConversions := c.externalConversions ++ [r] }

end BoundClass
end BindingModel.Api
