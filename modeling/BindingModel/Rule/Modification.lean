import BindingModel.Error
import BindingModel.FlagSet
import BindingModel.Pattern
import BindingModel.Rule.Policy
import BindingModel.Signature.Normal
import BindingModel.Spelled
import BindingModel.Text.Cut

/-! Rules that change functions, arguments, fields and documentation. -/
namespace BindingModel

inductive AccessChange
  | priv
  | prot
  | pub
  | friendly
  deriving DecidableEq, Repr

instance : Spelled AccessChange where
  table :=
    [(.priv, "private"), (.prot, "protected"), (.pub, "public"), (.friendly, "friendly")]

inductive ModFlag
  | final
  | nonFinal
  | readable
  | writable
  | rename
  | deprecated
  | remove
  deriving DecidableEq, Repr

instance : Spelled ModFlag where
  table :=
    [(.final, "FINAL"), (.nonFinal, "NON_FINAL"), (.readable, "READABLE"), (.writable, "WRITABLE"),
     (.rename, "RENAME"), (.deprecated, "DEPRECATED"), (.remove, "REMOVE")]

/-- Changes one argument, by its position from 1. -/
structure ArgumentMod where
  index : Nat
  replacedDefault? : Option String := none
  removesDefault : Bool := false
  removed : Bool := false
  isArray : Bool := false
  newName? : Option String := none
  ownership? : Option Ownership := none
  deriving DecidableEq, Repr

/-- To which functions a modification applies. -/
inductive FunctionTarget
  /-- The function of this normalized signature. -/
  | signature (text : String)
  | pattern (p : Pattern)

namespace FunctionTarget

def text : FunctionTarget → String
  | signature s => s
  | pattern p => p.source

def isPattern : FunctionTarget → Bool
  | signature _ => false
  | pattern _ => true

/-- Compare a signature, in normal form unless a pattern decides. -/
def covers : FunctionTarget → String → Bool
  | signature s, f => s == Signature.normalize f
  | pattern p, f => p.occursIn f

end FunctionTarget

/-- Changes the functions of a class that its target covers. -/
structure FunctionMod where
  target : FunctionTarget
  newName? : Option String := none
  access? : Option AccessChange := none
  flags : FlagSet ModFlag := {}
  policies : Policies := {}
  args : List ArgumentMod := []

namespace FunctionMod

def ofSignature (signature : String) : FunctionMod where
  target := .signature (Signature.normalize signature)

def ofPattern (engine : Pattern.Engine) (source : String) : Except Error FunctionMod :=
  match engine.compile source with
  | .ok p => .ok { target := .pattern p }
  | .error cause => .error (.malformed (.signaturePattern source cause))

/-- The same changes for one signature. -/
def forSignature (m : FunctionMod) (signature : String) : FunctionMod :=
  { m with target := .signature (Signature.normalize signature) }

def rename (m : FunctionMod) (name : String) : FunctionMod :=
  { m with newName? := some name, flags := m.flags.insert .rename }

def covers (m : FunctionMod) (signature : String) : Bool := m.target.covers signature

/-- The flag alone, without a new name, renames nothing. -/
def isRenamed (m : FunctionMod) : Bool := m.flags.has .rename && m.newName?.isSome

def isRemoved (m : FunctionMod) : Bool := m.flags.has .remove
def isFinal (m : FunctionMod) : Bool := m.flags.has .final
def isNonFinal (m : FunctionMod) : Bool := m.flags.has .nonFinal
def isDeprecated (m : FunctionMod) : Bool := m.flags.has .deprecated

def text (m : FunctionMod) : String :=
  let flags := m.flags.toList
  "FunctionModification(" ++ (if m.target.isPattern then "pattern" else "signature") ++ "=\"" ++
    m.target.text ++ "\"" ++
    (match m.newName? with
      | some n => ", renamed_to=\"" ++ n ++ "\""
      | none => "") ++
    (match m.access? with
      | some a => ", access=" ++ Spelled.text a
      | none => "") ++
    (if flags.isEmpty then ""
      else ", flags=ModificationFlags(" ++ Text.joinWith " | " (flags.map Spelled.text) ++ ")") ++
    ")"

end FunctionMod

/-- Changes one field of a class. -/
structure FieldMod where
  name : String
  newName? : Option String := none
  flags : FlagSet ModFlag := .ofList [.readable, .writable]
  deriving Repr

def FieldMod.isRemoved (m : FieldMod) : Bool := m.flags.has .remove

inductive DocMode
  | append
  | prepend
  | replace
  deriving DecidableEq, Repr

instance : Spelled DocMode where
  table :=
    [(.append, "Append"), (.prepend, "Prepend"), (.replace, "Replace")]

/-- Changes the documentation of the function with a normalized signature. -/
structure DocMod where
  signature : String
  mode : DocMode := .append
  code : String
  deriving DecidableEq, Repr

/-- A property that a rule declares. -/
structure PropertyDecl where
  name : String
  type : String
  read : String
  write? : Option String := none
  reset? : Option String := none
  designable? : Option String := none
  deriving DecidableEq, Repr

end BindingModel
