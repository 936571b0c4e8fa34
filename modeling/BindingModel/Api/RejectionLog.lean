import BindingModel.Spelled
import BindingModel.Text.Cut

/-! The record of what was kept out of the model, and its report. -/
namespace BindingModel.Api

inductive RejectReason
  | notInTypeSystem
  | generationDisabled
  | redefinedToNotClass
  | unmatchedReturnType
  | unmatchedArgumentType
  | apiIncompatible
  | deprecated
  deriving DecidableEq, Repr

instance : Spelled RejectReason where
  table :=
    [(.notInTypeSystem, "Not in type system"),
     (.generationDisabled, "Generation disabled by type system"),
     (.redefinedToNotClass, "Type redefined to not be a class"),
     (.unmatchedReturnType, "Unmatched return type"),
     (.unmatchedArgumentType, "Unmatched argument type"), (.apiIncompatible, "Incompatible API"),
     (.deprecated, "Deprecated")]

inductive RejectCategory
  | classes
  | enums
  | functions
  | fields
  deriving DecidableEq, Repr

instance : Spelled RejectCategory where
  table :=
    [(.classes, "classes"), (.enums, "enums"), (.functions, "functions"), (.fields, "fields")]

structure RejectRecord where
  key : String
  reason : RejectReason
  detail? : Option String := none
  deriving DecidableEq, Repr

/-- Add a record, or put its reason and detail in place of those of the same key. -/
def RejectRecord.enter (r : RejectRecord) : List RejectRecord → List RejectRecord
  | [] => [r]
  | q :: qs => if q.key = r.key then r :: qs else q :: r.enter qs

/-- The records of each category in order of their first entry. -/
structure RejectionLog where
  classes : List RejectRecord := []
  enums : List RejectRecord := []
  functions : List RejectRecord := []
  fields : List RejectRecord := []
  deriving Repr, Inhabited

namespace RejectionLog

def records (l : RejectionLog) : RejectCategory → List RejectRecord
  | .classes => l.classes
  | .enums => l.enums
  | .functions => l.functions
  | .fields => l.fields

def record (l : RejectionLog) (c : RejectCategory) (r : RejectRecord) : RejectionLog :=
  match c with
  | .classes => { l with classes := r.enter l.classes }
  | .enums => { l with enums := r.enter l.enums }
  | .functions => { l with functions := r.enter l.functions }
  | .fields => { l with fields := r.enter l.fields }

def find? (l : RejectionLog) (c : RejectCategory) (key : String) : Option RejectRecord :=
  (l.records c).find? (·.key == key)

def contains (l : RejectionLog) (c : RejectCategory) (key : String) : Bool := (l.find? c key).isSome

def count (l : RejectionLog) (c : RejectCategory) (r : RejectReason) : Nat :=
  (l.records c).countP (·.reason == r)

def size (l : RejectionLog) : Nat :=
  l.classes.length + l.enums.length + l.functions.length + l.fields.length

/-- The line above and below a section. -/
def frame : String := .ofList (List.replicate 72 '*') ++ "\n"

def line (r : RejectRecord) : String :=
  " - " ++ r.key ++
    (match r.detail? with
      | some d => " (" ++ d ++ ")"
      | none => "") ++ "\n"

/-- The section of one reason. -/
def part (records : List RejectRecord) (r : RejectReason) : String :=
  frame ++ Spelled.text r ++ "\n\n" ++ String.join ((records.filter (·.reason == r)).map line) ++
    frame ++ "\n"

/-- The report of a category, one section for each reason. -/
def render (l : RejectionLog) (c : RejectCategory) : String :=
  String.join ((Spelled.members RejectReason).map (part (l.records c)))

def renderAll (l : RejectionLog) : List (String × String) :=
  (Spelled.members RejectCategory).map fun c => (Spelled.text c, l.render c)

end RejectionLog
end BindingModel.Api
