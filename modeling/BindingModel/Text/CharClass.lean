import BindingModel.Text.Alphabetic
import BindingModel.Text.Numeric
import BindingModel.Text.WordChar

/-! Character classes of names and signatures, by Unicode property. -/
namespace BindingModel.Text

/-- The code point of `c` lies in one of the closed ranges. -/
def inRanges (ranges : List (Nat × Nat)) (c : Char) : Bool :=
  ranges.any fun r => r.1 ≤ c.toNat && c.toNat ≤ r.2

def whiteSpaceRanges : List (Nat × Nat) :=
  [(0x9, 0xd), (0x20, 0x20), (0x85, 0x85), (0xa0, 0xa0), (0x1680, 0x1680), (0x2000, 0x200a),
   (0x2028, 0x2029), (0x202f, 0x202f), (0x205f, 0x205f), (0x3000, 0x3000)]

/-- Unicode White_Space. -/
def isBlank (c : Char) : Bool := inRanges whiteSpaceRanges c

/-- Unicode Alphabetic. -/
def isAlphabetic (c : Char) : Bool :=
  if c.toNat < 0x80 then c.isAlpha else inRanges alphabeticRanges c

/-- Unicode number categories Nd, Nl and No. -/
def isNumeric (c : Char) : Bool :=
  if c.toNat < 0x80 then c.isDigit else inRanges numericRanges c

def isAlphanumeric (c : Char) : Bool := isAlphabetic c || isNumeric c

/-- A character that may begin an identifier. -/
def isNameStart (c : Char) : Bool := isAlphabetic c || c == '_'

/-- A character that may continue an identifier. -/
def isNameChar (c : Char) : Bool := isAlphanumeric c || c == '_'

/-- A word character of a search pattern: it counts marks and joiners, but of the numbers only
decimal digits. -/
def isWordChar (c : Char) : Bool :=
  if c.toNat < 0x80 then c.isAlphanum || c == '_' else inRanges wordRanges c

/-- A decimal digit of a search pattern. -/
def isDecimal (c : Char) : Bool :=
  if c.toNat < 0x80 then c.isDigit else inRanges decimalRanges c

end BindingModel.Text
