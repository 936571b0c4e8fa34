import BindingModel.Text.CharClass

/-! The normal form in which signatures are compared. -/
namespace BindingModel.Signature
open Text

/-- Drop blank characters, except that one space stays between two name characters. `last?` is the
character written last and `blank` tells that blanks were passed since. -/
def normalizeFrom (last? : Option Char) (blank : Bool) : List Char → List Char
  | [] => []
  | c :: s =>
    if isBlank c then normalizeFrom last? true s
    else if blank && last?.any isNameChar && isNameChar c then ' ' :: c :: normalizeFrom c false s
    else c :: normalizeFrom c false s

/-- Two spellings of a signature that differ in insignificant blanks have the same normal form. -/
def normalize (s : String) : String := .ofList (normalizeFrom none false s.toList)

end BindingModel.Signature
