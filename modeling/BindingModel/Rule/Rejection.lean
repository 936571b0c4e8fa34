import BindingModel.Error
import BindingModel.Pattern
import BindingModel.Spelled

/-! Rules that keep declarations out of the model. -/
namespace BindingModel

inductive RejectionKind
  | excludeClass
  | function
  | field
  | enumeration
  | argumentType
  | returnType
  deriving DecidableEq, Repr

instance : Spelled RejectionKind where
  table :=
    [(.excludeClass, "ExcludeClass"), (.function, "Function"), (.field, "Field"),
     (.enumeration, "Enum"), (.argumentType, "ArgumentType"), (.returnType, "ReturnType")]

/-- A rule on a class name and, unless whole classes are excluded, on a name or type inside it. -/
structure Rejection where
  kind : RejectionKind
  className : Pattern
  pattern? : Option Pattern

namespace Rejection

/-- The source for a rule's text: an anchored text is one already, `*` covers every text without a
line feed, any other text covers itself. -/
def anchoredSource (engine : Pattern.Engine) (text : String) : String :=
  if text.toList.head? = some '^' ∧ text.toList.getLast? = some '$' then text
  else if text = "*" then "^.*$"
  else "^" ++ engine.escape text ++ "$"

def anchored (engine : Pattern.Engine) (text : String) : Except Error Pattern :=
  match engine.compile (anchoredSource engine text) with
  | .ok p => .ok p
  | .error cause => .error (.malformed (.rejectionPattern text cause))

def make (engine : Pattern.Engine) (kind : RejectionKind) (className pattern : String) :
    Except Error Rejection := do
  let pattern? ←
    if kind = .excludeClass then pure none else some <$> anchored engine pattern
  pure { kind, className := ← anchored engine className, pattern? }

def covers (r : Rejection) (kind : RejectionKind) (className name : String) : Bool :=
  r.kind = kind && r.className.occursIn className && r.pattern?.all (·.occursIn name)

def text (r : Rejection) : String :=
  Spelled.text r.kind ++ " class=\"" ++ r.className.source ++ "\"" ++
    match r.pattern? with
    | some p => " pattern=\"" ++ p.source ++ "\""
    | none => ""

end Rejection
end BindingModel
