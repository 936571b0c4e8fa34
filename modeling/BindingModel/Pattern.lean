/-! Patterns, as an engine for regular expressions compiles them. The engine is a parameter of what
reads patterns; only a program that runs brings one of its own. -/
namespace BindingModel

/-- A compiled pattern: the text it was compiled from, and whether it is found in a text. -/
structure Pattern where
  source : String
  occursIn : String → Bool

namespace Pattern

/-- An engine, as far as rules need one. -/
structure Engine where
  /-- A source in which the characters of a text stand for themselves. -/
  escape : String → String
  /-- The compiled source, or what the engine has to say against it. -/
  compile : String → Except String Pattern

/-- Characters that have a meaning of their own in a source. -/
def isMeta (c : Char) : Bool := "\\.+*?()|[]\x7b\x7d^$#&-~".toList.contains c

/-- The spelling of a character that stands for itself. -/
def escapeChar (c : Char) : List Char := if isMeta c then ['\\', c] else [c]

end Pattern
end BindingModel
