/-! The bytes of a text, and what follows one of them. -/
namespace BindingModel.Text

/-- The byte at a position. -/
def byteAt? (s : String) (n : Nat) : Option UInt8 := s.toByteArray.data[n]?

/-- The rest of a text from a byte on. There is none behind the end or inside a character. -/
def fromByte? (s : String) (n : Nat) : Option String :=
  if h : String.Pos.Raw.IsValid s ⟨n⟩ then some (s.sliceFrom ⟨⟨n⟩, h⟩).copy else none

end BindingModel.Text
