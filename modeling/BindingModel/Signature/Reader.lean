import BindingModel.TypeExpr.Reader

/-! Function signatures as written in rules, `name(T1 a, T2 b = v) const`. -/
namespace BindingModel

structure Parameter where
  type : TypeExpr
  name? : Option String
  default? : Option String
  deriving Repr

structure Signature where
  name : String
  params : List Parameter
  isConst : Bool
  deriving Repr

namespace Signature
open Text

def isOpening (c : Char) : Bool := c == '(' || c == '<' || c == '[' || c == '\x7b'

def isClosing (c : Char) : Bool := c == ')' || c == '>' || c == ']' || c == '\x7d'

/-- The depth of bracket nesting after `c`. It is negative when more brackets close than open. -/
def nesting (depth : Int) (c : Char) : Int :=
  if isOpening c then depth + 1 else if isClosing c then depth - 1 else depth

/-- Split at each `sep` outside all brackets. -/
def splitTop (sep : Char) (depth : Int) : List Char → List (List Char)
  | [] => [[]]
  | c :: s =>
    let depth := nesting depth c
    if c = sep ∧ depth = 0 then [] :: splitTop sep depth s
    else
      match splitTop sep depth s with
      | [] => [[c]]
      | w :: ws => (c :: w) :: ws

/-- What stands inside and after the parentheses of which `depth + 1` are open. -/
def closeParen (depth : Nat) : List Char → Option (List Char × List Char)
  | [] => none
  | c :: s =>
    if c = '(' then (closeParen (depth + 1) s).map fun (a, b) => (c :: a, b)
    else if c = ')' then
      match depth with
      | 0 => some ([], s)
      | depth + 1 => (closeParen depth s).map fun (a, b) => (c :: a, b)
    else (closeParen depth s).map fun (a, b) => (c :: a, b)

/-- The front of a signature in which parentheses belong to the name: `operator()`. -/
def callOperator (s : List Char) : List Char × List Char :=
  let word := "operator".toList
  if word.isPrefixOf s then
    let blanks := (s.drop word.length).takeWhile isBlank
    match (s.drop word.length).dropWhile isBlank with
    | '(' :: ')' :: s => (word ++ blanks ++ ['(', ')'], s)
    | _ => ([], s)
  else ([], s)

/-- One parameter, `T name = default`. -/
def parseParameter (s : List Char) : Except Error Parameter := do
  let pieces := (splitTop '=' 0 s).map String.ofList
  let default := trim (joinWith "=" pieces.tail)
  let (type, name?) ← TypeExpr.parseDeclaration (trim (pieces.headD ""))
  pure { type, name?, default? := if default = "" then none else some default }

/-- Read a function signature with an optional trailing `const`. -/
def parse (src : String) : Except Error Signature := do
  let src := trim src
  let (front, s) := callOperator src.toList
  match cutFirst? ['('] s with
  | none => TypeExpr.fail (.missingParenthesis src)
  | some (before, s) =>
    match closeParen 0 s with
    | none => TypeExpr.fail (.unbalancedParentheses src)
    | some (inside, after) =>
      let name := trim (.ofList (front ++ before))
      if name = "" then TypeExpr.fail (.missingFunctionName src) else
      let isConst ← match trim (.ofList after) with
        | "" => pure false
        | "const" => pure true
        | rest => TypeExpr.fail (.afterSignature rest src)
      let inside := trim (.ofList inside)
      let params ←
        if inside = "" then pure [] else (splitTop ',' 0 inside.toList).mapM parseParameter
      pure { name, params, isConst }

end Signature
end BindingModel
