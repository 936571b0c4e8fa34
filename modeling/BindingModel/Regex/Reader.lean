import BindingModel.Regex.CharSetReader
import BindingModel.Text.Cut

/-! Reading patterns: first their marks, then the nesting of groups. -/
namespace BindingModel.Regex

/-- Lexical units of a pattern. -/
inductive Mark
  /-- A regex that stands for one character or for an anchor. -/
  | atom (r : Regex)
  | openGroup
  | closeGroup
  | bar
  | times (lo : Nat) (hi? : Option Nat)
  deriving Repr

/-- A number below 2³², with blanks around it. -/
def readNumber? (s : List Char) : Option Nat :=
  let s := Text.dropEndWhile Text.isBlank (s.dropWhile Text.isBlank)
  if s.isEmpty || !s.all Char.isDigit then none
  else
    let n := s.foldl (fun n c => 10 * n + (c.toNat - '0'.toNat)) 0
    if n < 0x100000000 then some n else none

/-- The bounds of a counted repetition, given the text between its braces. -/
def readBounds? (s : List Char) : Option (Nat × Option Nat) :=
  match s.span (· ≠ ',') with
  | (lo, []) => (readNumber? lo).map fun n => (n, some n)
  | (lo, [_]) => (readNumber? lo).map fun n => (n, none)
  | (lo, _ :: hi) => do
    let lo ← readNumber? lo
    let hi ← readNumber? hi
    if lo ≤ hi then some (lo, some hi) else none

/-- A repetition mark may be followed by `?`, which does not matter to a search for any match. -/
def dropLazy : List Char → List Char
  | '?' :: s => s
  | s => s

/-- The units of a pattern; `n` bounds their number. -/
def marks? : Nat → List Char → Option (List Mark)
  | 0, s => if s.isEmpty then some [] else none
  | n + 1, s =>
    match s with
    | [] => some []
    | '^' :: s => (.atom (.anchor .textStart) :: ·) <$> marks? n s
    | '$' :: s => (.atom (.anchor .textEnd) :: ·) <$> marks? n s
    | '.' :: s => (.atom .any :: ·) <$> marks? n s
    | '(' :: '?' :: ':' :: s => (.openGroup :: ·) <$> marks? n s
    | '(' :: '?' :: _ => none
    | '(' :: s => (.openGroup :: ·) <$> marks? n s
    | ')' :: s => (.closeGroup :: ·) <$> marks? n s
    | '|' :: s => (.bar :: ·) <$> marks? n s
    | '*' :: s => (.times 0 none :: ·) <$> marks? n (dropLazy s)
    | '+' :: s => (.times 1 none :: ·) <$> marks? n (dropLazy s)
    | '?' :: s => (.times 0 (some 1) :: ·) <$> marks? n (dropLazy s)
    | '\x7b' :: s =>
      match s.span (· ≠ '\x7d') with
      | (_, []) => none
      | (inside, _ :: s) => do
        let (lo, hi?) ← readBounds? inside
        (.times lo hi? :: ·) <$> marks? n (dropLazy s)
    | '[' :: s => do
      let (set, s) ← CharSet.read? s
      (.atom (.oneOf set) :: ·) <$> marks? n s
    | '\\' :: c :: s => do
      let r := match ← Escape.ofChar? c with
        | .char c => .char c
        | .set a => .oneOf a
        | .anchor a => .anchor a
      (.atom r :: ·) <$> marks? n s
    | ['\\'] => none
    | c :: s => (.atom (.char c) :: ·) <$> marks? n s

/-- A group that is being read: its finished alternatives and the factors of the last one, both
backwards. -/
structure Group where
  alternatives : List Regex := []
  factors : List Regex := []

/-- Factors in sequence, given backwards. -/
def sequence (factors : List Regex) : Regex :=
  factors.foldl (fun r f => .seq f r) .empty

/-- The regex of a group that ends here. -/
def Group.close (g : Group) : Regex :=
  g.alternatives.foldl (fun r a => .alt a r) (sequence g.factors)

/-- Build the regex; `outer` are the groups around the current one, innermost first. -/
def build? (outer : List Group) (g : Group) : List Mark → Option Regex
  | [] => if outer.isEmpty then some g.close else none
  | .atom r :: ms => build? outer { g with factors := r :: g.factors } ms
  | .openGroup :: ms => build? (g :: outer) {} ms
  | .closeGroup :: ms =>
    match outer with
    | [] => none
    | o :: outer => build? outer { o with factors := g.close :: o.factors } ms
  | .bar :: ms => build? outer ⟨sequence g.factors :: g.alternatives, []⟩ ms
  | .times lo hi? :: ms =>
    match g.factors with
    | [] => none
    | f :: fs => build? outer { g with factors := f.times lo hi? :: fs } ms

/-- The regex that a source spells; nothing when it is ill-formed. -/
def ofSource? (source : String) : Option Regex := do
  let ms ← marks? source.length source.toList
  build? [] {} ms

end BindingModel.Regex
