import BindingModel.Text.CharClass

/-! Sets of characters, as a pattern spells them. -/
namespace BindingModel.Regex

inductive CharSet
  | empty
  | range (lo hi : Char)
  | digit
  | word
  | blank
  | compl (a : CharSet)
  | union (a b : CharSet)
  | inter (a b : CharSet)
  | diff (a b : CharSet)
  | symmDiff (a b : CharSet)
  deriving DecidableEq, Repr, Inhabited

namespace CharSet

def contains : CharSet → Char → Bool
  | empty, _ => false
  | range lo hi, c => lo ≤ c && c ≤ hi
  | digit, c => Text.isDecimal c
  | word, c => Text.isWordChar c
  | blank, c => Text.isBlank c
  | compl a, c => !a.contains c
  | union a b, c => a.contains c || b.contains c
  | inter a b, c => a.contains c && b.contains c
  | diff a b, c => a.contains c && !b.contains c
  | symmDiff a b, c => a.contains c != b.contains c

def single (c : Char) : CharSet := range c c

/-- The union of some sets. -/
def ofList (l : List CharSet) : CharSet := l.foldr union empty

def complIf (negated : Bool) (a : CharSet) : CharSet := if negated then compl a else a

/-- The set of ASCII characters that a name stands for between `[:` and `:]`. -/
def named? : String → Option CharSet
  | "alnum" => some (ofList [range '0' '9', range 'A' 'Z', range 'a' 'z'])
  | "alpha" => some (ofList [range 'A' 'Z', range 'a' 'z'])
  | "ascii" => some (range '\x00' '\x7f')
  | "blank" => some (ofList [single '\t', single ' '])
  | "cntrl" => some (ofList [range '\x00' '\x1f', single '\x7f'])
  | "digit" => some (range '0' '9')
  | "graph" => some (range '!' '~')
  | "lower" => some (range 'a' 'z')
  | "print" => some (range ' ' '~')
  | "punct" => some (ofList [range '!' '/', range ':' '@', range '[' '\x60', range '\x7b' '~'])
  | "space" => some (ofList [range '\t' '\r', single ' '])
  | "upper" => some (range 'A' 'Z')
  | "word" => some (ofList [range '0' '9', range 'A' 'Z', single '_', range 'a' 'z'])
  | "xdigit" => some (ofList [range '0' '9', range 'A' 'F', range 'a' 'f'])
  | _ => none

end CharSet
end BindingModel.Regex
