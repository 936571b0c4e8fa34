import BindingModel.Text.Bytes
import Mathlib.Order.Basic

/-! Positions in a text that is put together of two parts, counted in bytes. -/
namespace BindingModel.Text

theorem fromByte?_append (a b : String) : fromByte? (a ++ b) a.utf8ByteSize = some b := by
  have hvalid : String.Pos.Raw.IsValid (a ++ b) ⟨a.utf8ByteSize⟩ :=
    String.Pos.Raw.isValid_iff_exists_append.mpr ⟨a, b, rfl, rfl⟩
  have hsplits : String.Pos.Splits (⟨⟨a.utf8ByteSize⟩, hvalid⟩ : (a ++ b).Pos) a b := ⟨rfl, rfl⟩
  have hrest : ((a ++ b).sliceFrom ⟨⟨a.utf8ByteSize⟩, hvalid⟩).copy = b :=
    (String.Pos.splits _).eq_right hsplits
  simp [fromByte?, hvalid, hrest]

theorem byteAt?_append (a b : String) : byteAt? (a ++ b) a.utf8ByteSize = byteAt? b 0 := by
  have hsize : a.toByteArray.data.size = a.utf8ByteSize := by
    rw [← String.size_toByteArray, ByteArray.size]
  unfold byteAt?
  rw [String.toByteArray_append, ByteArray.data_append, Array.getElem?_append_right (by omega),
    hsize, Nat.sub_self]

theorem byteAt?_zero_ofList (c : Char) (l : List Char) :
    byteAt? (.ofList (c :: l)) 0 = (String.utf8EncodeChar c).head? := by
  have hpos : c.utf8Size ≠ 0 := Nat.ne_of_gt c.utf8Size_pos
  unfold byteAt?
  rw [String.toByteArray_ofList]
  simp [List.utf8Encode, List.getElem?_append, List.head?_eq_getElem?, hpos]

/-- No character but the slash begins with its byte. -/
theorem head?_utf8EncodeChar_eq_slash {c : Char} :
    (String.utf8EncodeChar c).head? = some '/'.toUInt8 ↔ c = '/' := by
  constructor
  · intro h
    have hbyte : '/'.toUInt8.toNat = 47 := by decide
    have hlarge (n : Nat) (hlow : 128 ≤ n) (hhigh : n < 256) : UInt8.ofNat n ≠ '/'.toUInt8 := by
      intro heq
      have hn := congrArg UInt8.toNat heq
      rw [hbyte, UInt8.toNat_ofNat', Nat.mod_eq_of_lt hhigh] at hn
      omega
    have hc : c.val.toNat = 47 := by
      unfold String.utf8EncodeChar at h
      dsimp only at h
      split at h
      · have hn := congrArg UInt8.toNat (Option.some.inj h)
        rw [hbyte, UInt8.toNat_ofNat'] at hn
        omega
      · split at h
        · exact absurd (Option.some.inj h) (hlarge _ (by omega) (by omega))
        · split at h
          · exact absurd (Option.some.inj h) (hlarge _ (by omega) (by omega))
          · exact absurd (Option.some.inj h) (hlarge _ (by omega) (by omega))
    apply Char.ext
    apply UInt32.toNat_inj.mp
    exact hc
  · rintro rfl
    decide

theorem byteAt?_zero_eq_slash {s : String} :
    byteAt? s 0 = some '/'.toUInt8 ↔ ∃ rest, s = "/" ++ rest := by
  constructor
  · intro h
    cases hs : s.toList with
    | nil =>
      obtain rfl : s = "" := String.toList_eq_nil_iff.mp hs
      simp [byteAt?] at h
    | cons c l =>
      obtain rfl : s = .ofList (c :: l) := by rw [← hs, String.ofList_toList]
      rw [byteAt?_zero_ofList, head?_utf8EncodeChar_eq_slash] at h
      subst h
      exact ⟨.ofList l, by rw [← String.toList_inj]; simp⟩
  · rintro ⟨rest, rfl⟩
    obtain ⟨l, rfl⟩ : ∃ l, rest = .ofList l := ⟨rest.toList, String.ofList_toList.symm⟩
    have hcons : "/" ++ String.ofList l = .ofList ('/' :: l) := by rw [← String.toList_inj]; simp
    rw [hcons, byteAt?_zero_ofList, head?_utf8EncodeChar_eq_slash]

theorem utf8ByteSize_pos {s : String} : 0 < s.utf8ByteSize ↔ s ≠ "" := by
  rw [Nat.pos_iff_ne_zero, ne_eq, String.utf8ByteSize_eq_zero_iff]

end BindingModel.Text
