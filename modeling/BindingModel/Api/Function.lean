import BindingModel.Api.Property
import BindingModel.Header.Basic
import BindingModel.Rule.Database

/-! Functions, fields and enums of the model. -/
namespace BindingModel.Api

/-- The number of a class. -/
abbrev ClassId := Nat

inductive FunctionKind
  | constructor
  | copyConstructor
  | moveConstructor
  | destructor
  | normal
  | globalScope
  | signal
  | slot
  | assignmentOperator
  | moveAssignmentOperator
  deriving DecidableEq, Repr, Inhabited

instance : Spelled FunctionKind where
  table :=
    [(.constructor, "Constructor"), (.copyConstructor, "CopyConstructor"),
     (.moveConstructor, "MoveConstructor"), (.destructor, "Destructor"), (.normal, "Normal"),
     (.globalScope, "GlobalScope"), (.signal, "Signal"), (.slot, "Slot"),
     (.assignmentOperator, "AssignmentOperator"),
     (.moveAssignmentOperator, "MoveAssignmentOperator")]

def FunctionKind.ofDecl : Header.FunctionKind → FunctionKind
  | .normal => .normal
  | .constructor => .constructor
  | .copyConstructor => .copyConstructor
  | .moveConstructor => .moveConstructor
  | .destructor => .destructor
  | .signal => .signal
  | .slot => .slot

inductive Visibility
  | pub
  | prot
  | priv
  | friendly
  deriving DecidableEq, Repr, Inhabited

instance : Spelled Visibility where
  table :=
    [(.pub, "Public"), (.prot, "Protected"), (.priv, "Private"), (.friendly, "Friendly")]

def Visibility.ofAccess : Header.Access → Visibility
  | .pub => .pub
  | .prot => .prot
  | .priv => .priv

inductive FunctionAttr
  | static
  | virtual
  | abstract
  | finalCpp
  | finalInTargetLang
  | override
  | explicit
  | deprecated
  | const
  | invokable
  | reverseOperator
  | pointerOperator
  | propertyReader
  | propertyWriter
  | propertyResetter
  | added
  | implicit
  | instantiated
  deriving DecidableEq, Repr

instance : Spelled FunctionAttr where
  table :=
    [(.static, "STATIC"), (.virtual, "VIRTUAL"), (.abstract, "ABSTRACT"), (.finalCpp, "FINAL_CPP"),
     (.finalInTargetLang, "FINAL_IN_TARGET_LANG"), (.override, "OVERRIDE"), (.explicit, "EXPLICIT"),
     (.deprecated, "DEPRECATED"), (.const, "CONST"), (.invokable, "INVOKABLE"),
     (.reverseOperator, "REVERSE_OPERATOR"), (.pointerOperator, "POINTER_OPERATOR"),
     (.propertyReader, "PROPERTY_READER"), (.propertyWriter, "PROPERTY_WRITER"),
     (.propertyResetter, "PROPERTY_RESETTER"), (.added, "ADDED"), (.implicit, "IMPLICIT"),
     (.instantiated, "INSTANTIATED")]

structure Argument where
  name : String
  declaredName : String
  type : BoundType
  index : Nat
  default? : Option String := none
  declaredDefault? : Option String := none
  removed : Bool := false
  ownership? : Option Ownership := none
  deriving Repr, Inhabited

namespace Argument

def make (name : String) (type : BoundType) (index : Nat) : Argument where
  name := name
  declaredName := name
  type := type
  index := index

def text (a : Argument) : String :=
  a.type.signature ++ " " ++ a.name ++
    match a.default? with
    | some d => " = " ++ d
    | none => ""

end Argument

structure Function where
  name : String
  declaredName : String
  kind : FunctionKind
  args : List Argument := []
  /-- Absent for `void`. -/
  returnType? : Option BoundType := none
  visibility : Visibility := .pub
  attrs : FlagSet FunctionAttr := {}
  declaring? : Option ClassId := none
  implementing? : Option ClassId := none
  property? : Option Property := none
  exceptionSpec : Header.ExceptionSpec := .unknown
  policies : Policies := {}
  /-- The function entry that lists a global function. -/
  listedBy? : Option Entry := none
  /-- The policies after inheritance, once they are settled. -/
  settled? : Option Policies := none
  deriving Repr, Inhabited

/-- The name of an operator, conversions included. -/
def isOperatorName (name : String) : Bool :=
  let word := "operator".toList
  word.isPrefixOf name.toList &&
    (name.toList.drop word.length).head?.any fun c => !Text.isNameChar c || Text.isBlank c

/-- The class that a conversion operator's target names, given the text after `operator` and its
qualifier: a name with optional template arguments, then at most one `&` or `*`. -/
def targetName? (s : List Char) : Option (List Char) :=
  let name := s.takeWhile fun c => Text.isWordChar c || c == ':'
  let rest := s.dropWhile fun c => Text.isWordChar c || c == ':'
  let endsWell (s : List Char) : Bool :=
    match s.dropWhile Text.isBlank with
    | [] | ['&'] | ['*'] => true
    | _ => false
  if name.isEmpty then none
  else if endsWell rest then some name
  else
    match rest, Text.cutLast? ['>'] rest with
    | '<' :: _, some (args, rest) =>
      if !args.contains '\n' && endsWell rest then some (name ++ args ++ ['>']) else none
    | _, _ => none

/-- The target of a conversion operator's name. -/
def conversionTarget? (name : String) : Option String :=
  let word := "operator".toList
  if word.isPrefixOf name.toList then
    match name.toList.drop word.length with
    | c :: s =>
      if Text.isBlank c then
        let s := s.dropWhile Text.isBlank
        let qualified? := ["const", "volatile"].findSome? fun q =>
          if q.toList.isPrefixOf s then
            match s.drop q.length with
            | c :: s => if Text.isBlank c then targetName? (s.dropWhile Text.isBlank) else none
            | [] => none
          else none
        (qualified?.or (targetName? s)).map .ofList
      else none
    | [] => none
  else none

namespace Function

def make (name : String) (kind : FunctionKind) : Function where
  name := name
  declaredName := name
  kind := kind

def has (f : Function) (a : FunctionAttr) : Bool := f.attrs.has a

def setOwner (f : Function) (c : ClassId) : Function :=
  { f with declaring? := some c, implementing? := some c }

def isConstructor (f : Function) : Bool :=
  f.kind == .constructor || f.kind == .copyConstructor || f.kind == .moveConstructor

def isAssignment (f : Function) : Bool :=
  f.kind == .assignmentOperator || f.kind == .moveAssignmentOperator

def isEquals (f : Function) : Bool := f.declaredName == "operator=="

def isOperator (f : Function) : Bool := isOperatorName f.declaredName

def conversionTarget? (f : Function) : Option String := Api.conversionTarget? f.declaredName

def hasDefault (f : Function) (i : Nat) : Bool := f.args[i]?.any (·.default?.isSome)

def requiredArgumentCount (f : Function) : Nat := f.args.countP (·.default?.isNone)

/-- The signature by which modifications find the function. -/
def signature (f : Function) : String :=
  Signature.normalize <|
    f.declaredName ++ "(" ++ Text.joinWith "," (f.args.map (·.type.signature)) ++ ")" ++
      if f.has .const then "const" else ""

/-- The policies in force. -/
def effective (f : Function) : Policies := f.settled?.getD f.policies

/-- Settle the policies, once. -/
def settle (f : Function) (p : Policies) : Function := { f with settled? := f.settled?.or (some p) }

end Function

inductive PropertyRole
  | reader
  | writer
  | resetter
  deriving DecidableEq, Repr

instance : Spelled PropertyRole where
  table :=
    [(.reader, "Reader"), (.writer, "Writer"), (.resetter, "Resetter")]

def PropertyRole.attr : PropertyRole → FunctionAttr
  | .reader => .propertyReader
  | .writer => .propertyWriter
  | .resetter => .propertyResetter

/-- The part that a function plays for a property. -/
def Property.role? (p : Property) (f : Function) : Option PropertyRole :=
  if f.name = p.read ∧ f.args.isEmpty ∧ f.returnType?.any p.sameType then some .reader
  else if f.returnType?.isSome then none
  else if p.write? = some f.name ∧ f.args.length = 1 ∧ f.args.all (p.sameType ·.type) then
    some .writer
  else if p.reset? = some f.name ∧ f.args.isEmpty then some .resetter
  else none

structure Field where
  name : String
  declaredName : String
  type : BoundType
  visibility : Visibility := .pub
  isStatic : Bool := false
  readable : Bool := true
  writable : Bool := true
  enclosing? : Option ClassId := none
  deriving Repr, Inhabited

structure EnumValue where
  name : String
  value : Int
  /-- The initializer as written. -/
  text : String
  deriving DecidableEq, Repr, Inhabited

structure Enumeration where
  entry : Entry
  values : List EnumValue := []
  visibility : Visibility := .pub
  kind : Header.EnumKind
  signed : Bool := true
  enclosing? : Option ClassId := none
  deriving Repr, Inhabited

namespace Enumeration

def name (e : Enumeration) : String := e.entry.localName

def qualifiedName (e : Enumeration) : String := e.entry.name

def find? (e : Enumeration) (name : String) : Option EnumValue := e.values.find? (·.name == name)

/-- The first enumerator that is zero. -/
def null? (e : Enumeration) : Option EnumValue := e.values.find? (·.value == 0)

end Enumeration
end BindingModel.Api
