import BindingModel.Text.CharClass

/-! Trimming, cutting and splitting of texts. -/
namespace BindingModel.Text

def trimStart (s : String) : String := .ofList (s.toList.dropWhile isBlank)

def dropEndWhile (p : Char → Bool) (s : List Char) : List Char := (s.reverse.dropWhile p).reverse

def trimEnd (s : String) : String := .ofList (dropEndWhile isBlank s.toList)

/-- Drop blank characters at both ends. -/
def trim (s : String) : String := trimEnd (trimStart s)

/-- What stands before and after the first occurrence of `mark`. -/
def cutFirst? (mark : List Char) : List Char → Option (List Char × List Char)
  | [] => if mark.isEmpty then some ([], []) else none
  | c :: s =>
    if mark.isPrefixOf (c :: s) then some ([], (c :: s).drop mark.length)
    else (cutFirst? mark s).map fun (a, b) => (c :: a, b)

/-- What stands before and after the last occurrence of `mark`. -/
def cutLast? (mark : List Char) : List Char → Option (List Char × List Char)
  | [] => if mark.isEmpty then some ([], []) else none
  | c :: s =>
    match cutLast? mark s with
    | some (a, b) => some (c :: a, b)
    | none => if mark.isPrefixOf (c :: s) then some ([], (c :: s).drop mark.length) else none

/-- The texts in order, with `sep` between neighbours. -/
def joinWith (sep : String) : List String → String
  | [] => ""
  | [s] => s
  | s :: t :: ts => s ++ sep ++ joinWith sep (t :: ts)

/-- Split at each `::`, found from the left. -/
def splitScopes : List Char → List (List Char)
  | [] => [[]]
  | ':' :: ':' :: s => [] :: splitScopes s
  | c :: s =>
    match splitScopes s with
    | [] => [[c]]
    | w :: ws => (c :: w) :: ws

/-- The segments of a qualified name. -/
def segments (name : String) : List String := (splitScopes name.toList).map .ofList

/-- The qualified name of the segments. -/
def qualified (segs : List String) : String := joinWith "::" segs

/-- What follows the last `::`, or the whole name. -/
def localName (name : String) : String :=
  match cutLast? [':', ':'] name.toList with
  | some (_, b) => .ofList b
  | none => name

/-- What precedes the last `::`, or nothing. -/
def qualifier (name : String) : String :=
  match cutLast? [':', ':'] name.toList with
  | some (a, _) => .ofList a
  | none => ""

/-- `Foo<T>` without its template arguments. -/
def withoutArguments (name : String) : String :=
  match cutFirst? ['<'] name.toList with
  | some (a, _) => trimEnd (.ofList a)
  | none => name

/-- Split at each character of the class. -/
def splitBy (p : Char → Bool) : List Char → List (List Char)
  | [] => [[]]
  | c :: s =>
    if p c then [] :: splitBy p s
    else
      match splitBy p s with
      | [] => [[c]]
      | w :: ws => (c :: w) :: ws

/-- The maximal runs of characters that are not blank. -/
def words (s : String) : List String :=
  ((splitBy isBlank s.toList).filter (!·.isEmpty)).map .ofList

end BindingModel.Text
