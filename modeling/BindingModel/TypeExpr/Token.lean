import BindingModel.TypeExpr.Basic

/-! Lexical units of type expressions. -/
namespace BindingModel

inductive Token
  | ident (name : String)
  | number (digits : String)
  | scope
  | less
  | greater
  | comma
  | star
  | amp
  | ampAmp
  | leftBracket
  | rightBracket
  | leftParen
  | rightParen
  | ellipsis
  | other (c : Char)
  deriving DecidableEq, Repr

namespace Token

def text : Token → String
  | ident s => s
  | number s => s
  | scope => "::"
  | less => "<"
  | greater => ">"
  | comma => ","
  | star => "*"
  | amp => "&"
  | ampAmp => "&&"
  | leftBracket => "["
  | rightBracket => "]"
  | leftParen => "("
  | rightParen => ")"
  | ellipsis => "..."
  | other c => c.toString

/-- The unit of a single character that neither begins a longer unit nor is blank. -/
def ofChar : Char → Token
  | '<' => less
  | '>' => greater
  | ',' => comma
  | '*' => star
  | '&' => amp
  | '[' => leftBracket
  | ']' => rightBracket
  | '(' => leftParen
  | ')' => rightParen
  | c => other c

/-- A character that may continue a number. -/
def isNumberChar (c : Char) : Bool := Text.isAlphanumeric c || c == '.'

/-- A number begins with a digit, or with a minus before a digit. -/
def startsNumber (c : Char) (rest : List Char) : Bool :=
  c.isDigit || c == '-' && rest.head?.any Char.isDigit

/-- The units of a text; nothing when two dots stand without a third. -/
def scan : List Char → Option (List Token)
  | [] => some []
  | c :: s =>
    if Text.isBlank c then scan s
    else if Text.isNameStart c then
      (ident (.ofList (c :: s.takeWhile Text.isNameChar)) :: ·) <$>
        scan (s.dropWhile Text.isNameChar)
    else if startsNumber c s then
      (number (.ofList (c :: s.takeWhile isNumberChar)) :: ·) <$> scan (s.dropWhile isNumberChar)
    else
      match c, s with
      | ':', ':' :: s => (scope :: ·) <$> scan s
      | '&', '&' :: s => (ampAmp :: ·) <$> scan s
      | '.', '.' :: '.' :: s => (ellipsis :: ·) <$> scan s
      | '.', '.' :: _ => none
      | c, s => (ofChar c :: ·) <$> scan s
termination_by s => s.length
decreasing_by
  all_goals simp only [List.length_cons]
  all_goals
    first
      | exact Nat.lt_succ_of_le (List.dropWhile_sublist _).length_le
      | omega

end Token
end BindingModel
