import BindingModel.Graph.Search
import BindingModel.Regex.CharSet

/-! Regular expressions with anchors, found anywhere in a text. -/
namespace BindingModel

namespace Regex

/-- The character right before a position. -/
def charBefore? (text : Array Char) : Nat → Option Char
  | 0 => none
  | i + 1 => text[i]?

/-- Conditions on a position. -/
inductive Anchor
  | textStart
  | textEnd
  | wordStart
  | wordEnd
  /-- The start or the end of a word. -/
  | wordEdge
  | noWordEdge
  deriving DecidableEq, Repr

def Anchor.holds (a : Anchor) (text : Array Char) (i : Nat) : Bool :=
  let before := (charBefore? text i).any Text.isWordChar
  let after := text[i]?.any Text.isWordChar
  match a with
  | textStart => i == 0
  | textEnd => i == text.size
  | wordStart => !before && after
  | wordEnd => before && !after
  | wordEdge => before != after
  | noWordEdge => before == after

end Regex

open Regex in
inductive Regex
  | empty
  | anchor (a : Anchor)
  | char (c : Char)
  /-- Any character but a line feed. -/
  | any
  | oneOf (set : CharSet)
  | seq (a b : Regex)
  | alt (a b : Regex)
  | star (a : Regex)
  deriving DecidableEq, Repr

namespace Regex

/-- The positions right after those of the given positions that have a fit character. -/
def advance (text : Array Char) (fit : Char → Bool) (starts : List Nat) : List Nat :=
  (starts.filter fun i => text[i]?.any fit).map (· + 1)

/-- The positions where a match may end that begins at one of the given positions. -/
def ends (text : Array Char) : Regex → List Nat → List Nat
  | empty, l => l
  | anchor a, l => l.filter (a.holds text)
  | char c, l => advance text (· == c) l
  | any, l => advance text (· != '\n') l
  | oneOf set, l => advance text set.contains l
  | seq a b, l => ends text b (ends text a l)
  | alt a b, l => (ends text a l ++ ends text b l).eraseDups
  | star a, l => Search.closure (ends text a) text.size l l

/-- Some part of the text matches. -/
def occursIn (r : Regex) (text : List Char) : Bool :=
  !(ends text.toArray r (List.range (text.length + 1))).isEmpty

/-- `n` copies in sequence. -/
def copies (r : Regex) : Nat → Regex
  | 0 => empty
  | n + 1 => seq r (copies r n)

/-- Up to `n` copies in sequence. -/
def upTo (r : Regex) : Nat → Regex
  | 0 => empty
  | n + 1 => alt empty (seq r (upTo r n))

/-- Repetition with a lower and possibly an upper bound. -/
def times (r : Regex) (lo : Nat) : Option Nat → Regex
  | none => seq (copies r lo) (star r)
  | some hi => seq (copies r lo) (upTo r (hi - lo))

end Regex
end BindingModel
