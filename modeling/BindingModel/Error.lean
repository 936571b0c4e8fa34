/-! Causes of failure and their wording. -/
namespace BindingModel

/-- What makes a type, a signature, a property or a pattern unreadable. -/
inductive Malformed
  | doubleDot (source : String)
  | expected (token found source : String)
  | expectedAtEnd (token source : String)
  | unexpectedInType (token source : String)
  | emptyType (source : String)
  | unterminatedArray (source : String)
  | expectedIdentifier (source : String)
  | unexpectedInArguments (token source : String)
  | unterminatedArguments (source : String)
  | pointerParameters (source : String)
  | trailing (token source : String)
  | unexpectedInDeclaration (token source : String)
  | trailingInDeclaration (source : String)
  | missingParenthesis (signature : String)
  | unbalancedParentheses (signature : String)
  | missingFunctionName (signature : String)
  | afterSignature (rest signature : String)
  | propertyWithoutRead (property : String)
  | propertyWithoutTypeOrName (property : String)
  | propertyWithoutName (property : String)
  /-- With the cause in the words of the engine for patterns. -/
  | signaturePattern (pattern cause : String)
  | rejectionPattern (pattern cause : String)
  deriving DecidableEq, Repr

def Malformed.message : Malformed → String
  | doubleDot s => s!"Unexpected '..' in type '{s}'"
  | expected t f s => s!"Expected '{t}' but found '{f}' in '{s}'"
  | expectedAtEnd t s => s!"Expected '{t}' at end of '{s}'"
  | unexpectedInType t s => s!"Unexpected '{t}' in type '{s}'"
  | emptyType s => s!"Empty type expression '{s}'"
  | unterminatedArray s => s!"Unterminated array in '{s}'"
  | expectedIdentifier s => s!"Expected identifier in '{s}'"
  | unexpectedInArguments t s => s!"Unexpected '{t}' in template arguments of '{s}'"
  | unterminatedArguments s => s!"Unterminated template arguments in '{s}'"
  | pointerParameters s => s!"Malformed function pointer parameters in '{s}'"
  | trailing t s => s!"Trailing '{t}' after type '{s}'"
  | unexpectedInDeclaration t s => s!"Unexpected '{t}' in declaration '{s}'"
  | trailingInDeclaration s => s!"Trailing tokens in declaration '{s}'"
  | missingParenthesis s => s!"Missing '(' in signature '{s}'"
  | unbalancedParentheses s => s!"Unbalanced parentheses in signature '{s}'"
  | missingFunctionName s => s!"Missing function name in signature '{s}'"
  | afterSignature r s => s!"Unexpected '{r}' after signature '{s}'"
  | propertyWithoutRead s => s!"Property '{s}' has no READ clause"
  | propertyWithoutTypeOrName s => s!"Property '{s}' lacks a type or name"
  | propertyWithoutName s => s!"Property '{s}' lacks a name"
  | signaturePattern p c => s!"Invalid signature pattern '{p}': {c}"
  | rejectionPattern p c => s!"Invalid rejection pattern '{p}': {c}"

mutual

inductive Error
  | malformed (cause : Malformed)
  /-- A type of the header without meaning; the declaration that needs it is dropped. -/
  | unresolved (type : String) (reason : Unresolved)
  /-- A type named by a rule is not registered. -/
  | typeNotFound (name : String) (candidates : List String)
  | addedFunction (function scope : String) (source : Error)
  | invalidInstantiation (name : String)
  /-- An array modification of a type without an indirection. -/
  | notAPointer (type : String)
  | recursionLimit (limit : Nat)
  | cyclicDependency (cycle : String)

/-- Why a type of the header has no meaning. -/
inductive Unresolved
  | functionPointer
  | unknownName (name : String)
  | argument (position : Nat) (type : String) (cause : Error)
  | invalidInstantiation (name : String)

end

/-- What a rule's author is told about a missing type. -/
def candidateHint : List String → String
  | [] => "\nDeclare it in the type system using the proper <*-type> tag."
  | cs => "\nRemember to inform the full qualified name for the type you want to use." ++
      "\nCandidates are:" ++ String.join (cs.map ("\n    " ++ ·))

mutual

def Error.message : Error → String
  | .malformed m => m.message
  | .unresolved t r => s!"Unable to translate type \"{t}\": " ++ r.message
  | .typeNotFound n cs => s!"Type '{n}' wasn't found in the type database." ++ candidateHint cs
  | .addedFunction f s e => s!"Unable to traverse function \"{f}\" added to \"{s}\": " ++ e.message
  | .invalidInstantiation n => s!"Instantiations are not allowed on '{n}'"
  | .notAPointer t => s!"Cannot apply array modification to non-pointer type '{t}'"
  | .recursionLimit n => s!"Reach the maximum recursion level allowed - {n}"
  | .cyclicDependency c => s!"Cyclic dependency found: {c}"

def Unresolved.message : Unresolved → String
  | .functionPointer => "Unsupported function pointer."
  | .unknownName n => s!"could not find type '{n}'"
  | .argument i t e => s!"could not resolve template argument {i} '{t}': " ++ e.message
  | .invalidInstantiation n => s!"Instantiations are not allowed on '{n}'"

end

/-- The wording inside a report, where an unreadable text is marked as such. -/
def Error.report : Error → String
  | malformed m => "Malformed - " ++ m.message
  | e => e.message

end BindingModel
