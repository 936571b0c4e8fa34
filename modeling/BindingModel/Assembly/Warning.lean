import BindingModel.Error
import BindingModel.Text.Cut

/-! What an assembly warns of. -/
namespace BindingModel.Assembly

inductive Warning
  | namespaceWithoutEntry (name : String)
  | unreadableProperty (property className : String) (cause : Error)
  | propertyTypeUnknown (type className : String)
  | enumWithoutEntry (name : String)
  | fieldTypeUnmatched (className field type : String)
  | returnTypeUnmatched (function type : String) (cause : Error)
  | argumentStripped (position : Nat) (function type default : String) (cause : Error)
  | parameterTypeUnmatched (position : Nat) (function type : String) (cause : Error)
  | defaultWithoutName (position : Nat) (className signature : String)
  | arrayModification (className : String) (cause : Error)
  | operatorNotReverse
  | operatorArity
  | unknownBase (className base : String)
  | severalPrimaryBases (className : String) (count : Nat)
  | unknownTemplateBase (className base : String)
  | unreadableTemplate (name template : String) (cause : Error)
  | templateArgumentIgnored (name template : String)
  | substitutionTooDeep (type : String) (limit : Nat)
  | specialization (className template : String) (cause : Error)
  | typeNotDefined (name : String)
  | globalFunctionNotDefined (signature : String)
  | enumNotDeclared (name : String)
  | modificationUnmatched (signature className : String) (candidates : List String)

def Warning.text : Warning → String
  | namespaceWithoutEntry n => s!"namespace '{n}' does not have a type entry"
  | unreadableProperty p c e => s!"Unable to parse property '{p}' in class '{c}': {e.report}"
  | propertyTypeUnknown t c => s!"Unable to decide type of property: '{t}' in class '{c}'"
  | enumWithoutEntry n => s!"enum '{n}' does not have a type entry or is not an enum"
  | fieldTypeUnmatched c f t => s!"skipping field '{c}::{f}' with unmatched type '{t}'"
  | returnTypeUnmatched f t e =>
    s!"skipping function '{f}', unmatched return type '{t}': {e.report}"
  | argumentStripped i f t d e =>
    s!"Stripping argument #{i} of {f} due to unmatched type \"{t}\" with default expression " ++
      s!"\"{d}\": {e.report}"
  | parameterTypeUnmatched i f t e =>
    s!"skipping function '{f}', unmatched parameter type '{t}' (#{i}): {e.report}"
  | defaultWithoutName i c s =>
    s!"Argument {i} on function '{c}::{s}' has default expression but does not have name."
  | arrayModification c e => s!"While traversing {c}: {e.report}"
  | operatorNotReverse =>
    "Operator overload can have two arguments only if it's a reverse operator!"
  | operatorArity => "An operator overload need to have 0, 1 or 2 arguments if it's reverse."
  | unknownBase c b => s!"class '{c}' inherits from unknown base class '{b}'"
  | severalPrimaryBases c n =>
    s!"class '{c}' has {n} primary base class candidates, using the last one"
  | unknownTemplateBase c b => s!"template baseclass '{b}' of '{c}' is not known"
  | unreadableTemplate n t e =>
    s!"Unable to parse type \"{n}\" while looking for template \"{t}\": {e.report}"
  | templateArgumentIgnored n t =>
    s!"Ignoring template parameter {n} from {t}. " ++
      "The corresponding type was not found in the typesystem."
  | substitutionTooDeep t n => s!"template substitution of '{t}' exceeds depth {n}"
  | specialization c t e => s!"While specializing {c} ({t}): {e.report}"
  | typeNotDefined n =>
    s!"type '{n}' is specified in typesystem, but not defined. " ++
      "This could potentially lead to compilation errors."
  | globalFunctionNotDefined s =>
    s!"Global function '{s}' is specified in typesystem, but not defined. " ++
      "This could potentially lead to compilation errors."
  | enumNotDeclared n => s!"enum '{n}' is specified in typesystem, but not declared"
  | modificationUnmatched s c cs =>
    s!"signature '{s}' for function modification in '{c}' not found. Possible candidates: " ++
      Text.joinWith ", " cs

end BindingModel.Assembly
