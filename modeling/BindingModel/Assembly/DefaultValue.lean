import BindingModel.Api.BoundClass
import BindingModel.Text.Integer

/-! Default expressions, made valid outside the class that declares them. -/
namespace BindingModel.Assembly
open Api Text

/-- The parts of a text around the outermost template arguments of a line: up to the opening
bracket, between the brackets, and from the closing one up to a further one. -/
def bracketParts? : (front : List Char) → List Char → Option (List Char × List Char × List Char)
  | _, [] => none
  | front, '<' :: s =>
    match cutLast? ['>'] (s.takeWhile (· ≠ '\n')) with
    | some (inner, rest) =>
      some (front ++ ['<'], inner,
        '>' :: rest ++ (s.dropWhile (· ≠ '\n')).takeWhile (· ≠ '>'))
    | none => bracketParts? [] s
  | front, c :: s => bracketParts? (front ++ [c]) s

/-- The parts of a constructor call: up to the opening parenthesis, the text up to the closing one,
and that one. Each part may be missing. -/
def callParts (s : List Char) : List Char × List Char × List Char :=
  let (front, s) := match cutFirst? ['('] s with
    | some (a, b) => (a ++ ['('], b)
    | none => ([], s)
  (front, s.takeWhile (· ≠ ')'), if s.contains ')' then [')'] else [])

/-- The scope, with its `::`, and the name of a type that is used by value, as a constant or behind
one `&` or `*`. -/
def scopedType? (s : List Char) : Option (List Char × List Char) :=
  let word := "const".toList
  let isPart (c : Char) : Bool := isWordChar c || c == ':'
  let s :=
    if word.isPrefixOf s && (s.drop word.length).head?.any isBlank then
      (s.drop word.length).dropWhile isBlank
    else s
  let endsWell := match (s.dropWhile isPart).dropWhile isBlank with
    | [] | ['&'] | ['*'] => true
    | _ => false
  match cutLast? [':', ':'] (s.takeWhile isPart) with
  | some (scope, c :: name) =>
    if endsWell && (c.isAlpha || c == '_') && name.all isWordChar then
      some (scope ++ [':', ':'], c :: name)
    else none
  | _ => none

/-- A call of a constructor that needs the scope of the argument's type, or a field that needs the
scope of its class. -/
def fixConstructorDefault (expression : String) (type : BoundType) (class? : Option BoundClass) :
    String :=
  let (front, value, back) := callParts expression.toList
  let inScope := match scopedType? type.signature.toList with
    | some (scope, name) =>
      if front.filter (· ≠ '(') = name then .ofList scope ++ expression else expression
    | none => expression
  match class? with
  | some c =>
    if c.fields.any (·.name == .ofList value) then
      .ofList front ++ c.name ++ "::" ++ .ofList (value ++ back)
    else inScope
  | none => inScope

/-- The default expression for an argument of some type, in a function of a class. -/
def fixDefault (expression : String) (type : BoundType) (class? : Option BoundClass) : String :=
  let s := trim expression
  let isNumber := (readSigned? 10 s.toList).isSome
  let entry := type.entry
  if entry.isKind .primitive && type.pointers == 0 then
    if entry.name = "bool" then
      match readSigned? 10 s.toList with
      | some n => if n ≠ 0 then "true" else "false"
      | none => s
    else s
  else if entry.isKind .enumeration || entry.isKind .flags then
    if isNumber || (cutFirst? [':', ':'] s.toList).isSome then s
    else
      let enum? := if entry.isKind .flags then entry.enum? else some entry
      match enum?.bind (·.enumQualifier?) with
      | some q => if q = "" then s else q ++ "::" ++ s
      | none => s
  else if type.usage = .container ∧ s.toList.contains '<' then
    match bracketParts? [] type.signature.toList, bracketParts? [] s.toList with
    | some (_, inner, _), some (front, _, back) => .ofList (front ++ inner ++ back)
    | _, _ => s
  else fixConstructorDefault s type class?

end BindingModel.Assembly
