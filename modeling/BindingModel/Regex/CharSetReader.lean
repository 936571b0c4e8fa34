import BindingModel.Regex.Basic

/-! Reading escapes and bracketed sets of characters. -/
namespace BindingModel.Regex

/-- What a backslash and a character stand for together. -/
inductive Escape
  | char (c : Char)
  | set (set : CharSet)
  | anchor (a : Anchor)
  deriving Repr

/-- Other ASCII characters than letters and digits stand for themselves, but `<` and `>` for the
edges of a word. -/
def Escape.ofChar? : Char → Option Escape
  | 'd' => some (.set .digit)
  | 'D' => some (.set (.compl .digit))
  | 'w' => some (.set .word)
  | 'W' => some (.set (.compl .word))
  | 's' => some (.set .blank)
  | 'S' => some (.set (.compl .blank))
  | 'a' => some (.char '\x07')
  | 't' => some (.char '\t')
  | 'n' => some (.char '\n')
  | 'v' => some (.char '\x0b')
  | 'f' => some (.char '\x0c')
  | 'r' => some (.char '\r')
  | 'A' => some (.anchor .textStart)
  | 'z' => some (.anchor .textEnd)
  | 'b' => some (.anchor .wordEdge)
  | 'B' => some (.anchor .noWordEdge)
  | '<' => some (.anchor .wordStart)
  | '>' => some (.anchor .wordEnd)
  | c => if c.toNat < 0x80 && !c.isAlphanum then some (.char c) else none

namespace CharSet

/-- A bracket that is being read: what stands left of its last operator, and the members since. -/
structure Bracket where
  negated : Bool := false
  left : CharSet → CharSet := id
  members : CharSet := .empty

def Bracket.add (b : Bracket) (a : CharSet) : Bracket := { b with members := .union b.members a }

/-- An operator: it takes all that was read so far as its left operand. -/
def Bracket.operate (b : Bracket) (op : CharSet → CharSet → CharSet) : Bracket :=
  { b with left := op (b.left b.members), members := .empty }

def Bracket.close (b : Bracket) : CharSet := complIf b.negated (b.left b.members)

/-- A single member. -/
def readMember? : List Char → Option (Escape × List Char)
  | [] => none
  | '\\' :: c :: s => (Escape.ofChar? c).map (·, s)
  | ['\\'] => none
  | c :: s => some (.char c, s)

/-- A member or a range of characters. A hyphen before another hyphen or before a closing bracket
makes no range. -/
def readRange? (s : List Char) : Option (CharSet × List Char) := do
  let (first, s) ← readMember? s
  let alone : Option (CharSet × List Char) :=
    match first with
    | .char c => some (single c, s)
    | .set a => some (a, s)
    | .anchor _ => none
  match s with
  | '-' :: ']' :: _ | '-' :: '-' :: _ => alone
  | '-' :: s =>
    match first, ← readMember? s with
    | .char lo, (.char hi, s) => if lo ≤ hi then some (range lo hi, s) else none
    | _, _ => none
  | _ => alone

/-- A set by name, such as `[:alpha:]`, after its first bracket. -/
def readNamed? : List Char → Option (CharSet × List Char)
  | ':' :: '^' :: s => go true s
  | ':' :: s => go false s
  | _ => none
where
  go (negated : Bool) (s : List Char) : Option (CharSet × List Char) :=
    match s.span (· ≠ ':') with
    | (name, ':' :: ']' :: s) => (named? (.ofList name)).map (complIf negated ·, s)
    | _ => none

/-- The front of a bracket after `[`: hyphens there are members, or else a closing bracket is. -/
def openBracket (s : List Char) : Bracket × List Char :=
  let (negated, s) := match s with
    | '^' :: s => (true, s)
    | s => (false, s)
  match s with
  | '-' :: s => ({ negated, members := single '-' }, s.dropWhile (· = '-'))
  | ']' :: s => ({ negated, members := single ']' }, s)
  | s => ({ negated }, s)

/-- The rest of a bracket; `outer` are the brackets around it, innermost first, and `n` bounds the
number of members. -/
def readBracket? : Nat → (outer : List Bracket) → Bracket → List Char →
    Option (CharSet × List Char)
  | 0, _, _, _ => none
  | n + 1, outer, b, s =>
    match s with
    | ']' :: s =>
      match outer with
      | [] => some (b.close, s)
      | o :: outer => readBracket? n outer (o.add b.close) s
    | '[' :: s =>
      match readNamed? s with
      | some (a, s) => readBracket? n outer (b.add a) s
      | none =>
        let (inner, s) := openBracket s
        readBracket? n (b :: outer) inner s
    | '&' :: '&' :: s => readBracket? n outer (b.operate .inter) s
    | '-' :: '-' :: s => readBracket? n outer (b.operate .diff) s
    | '~' :: '~' :: s => readBracket? n outer (b.operate .symmDiff) s
    | s => do
      let (a, s) ← readRange? s
      readBracket? n outer (b.add a) s

/-- A bracketed set after its opening bracket. -/
def read? (s : List Char) : Option (CharSet × List Char) :=
  let (b, rest) := openBracket s
  readBracket? (s.length + 1) [] b rest

end CharSet
end BindingModel.Regex
