import BindingModel.Text.Cut

/-! Reading integer literals of 64 bits. -/
namespace BindingModel.Text

def digitValue? (base : Nat) (c : Char) : Option Nat :=
  let n :=
    if c.isDigit then c.toNat - '0'.toNat
    else if 'a' ≤ c ∧ c ≤ 'z' then c.toNat - 'a'.toNat + 10
    else if 'A' ≤ c ∧ c ≤ 'Z' then c.toNat - 'A'.toNat + 10
    else base
  if n < base then some n else none

def readDigits? (base : Nat) (acc : Nat) : List Char → Option Nat
  | [] => some acc
  | c :: s => (digitValue? base c).bind fun d => readDigits? base (acc * base + d) s

/-- A number that fits into 64 bits, with an optional sign. -/
def readSigned? (base : Nat) (s : List Char) : Option Int :=
  let (negative, digits) := match s with
    | '-' :: s => (true, s)
    | '+' :: s => (false, s)
    | s => (false, s)
  if digits.isEmpty then none
  else
    match readDigits? base 0 digits with
    | none => none
    | some n =>
      let v : Int := if negative then -n else n
      if -0x8000000000000000 ≤ v ∧ v < 0x8000000000000000 then some v else none

/-- An integer literal: a minus, decimal digits or `0x` and hexadecimal ones, and type suffixes. The
digits may have a sign of their own; the negation of the least number of 64 bits wraps around to
itself. -/
def readInteger? (s : String) : Option Int :=
  let (negative, digits) := match s.toList with
    | '-' :: s => (true, s.dropWhile isBlank)
    | s => (false, s)
  let digits := dropEndWhile (fun c => c == 'u' || c == 'U' || c == 'l' || c == 'L') digits
  let value? := match digits with
    | '0' :: 'x' :: hex | '0' :: 'X' :: hex => readSigned? 16 hex
    | digits => readSigned? 10 digits
  value?.map fun v => if negative then (-v).bmod 0x10000000000000000 else v

end BindingModel.Text
