import BindingModel.Proofs.Signature.Pieces
import BindingModel.Proofs.Text.Trim
import BindingModel.Text.Integer

/-! Decimal numbers are read as what they spell. -/
namespace BindingModel.Text
variable {c : Char} {s : List Char} {n : Nat}

theorem dropEndWhile_eq_self {p : Char → Bool} (h : ∀ c ∈ s, p c = false) :
    dropEndWhile p s = s :=
  dropEndWhile_eq_iff.mpr ⟨⟨[], by simp⟩, fun c hc => h c (List.mem_of_mem_getLast? hc)⟩

theorem trim_eq_self {s : String} (h : ∀ c ∈ s.toList, isBlank c = false) : trim s = s :=
  trim_eq_self_iff.mpr (.of_forall h)

/-! ### Digits -/

theorem toNat_le_of_isDigit (hc : c.isDigit = true) : c.toNat ≤ 57 := by
  simp only [Char.isDigit, Bool.and_eq_true, decide_eq_true_eq, UInt32.le_iff_toNat_le] at hc
  exact hc.2

theorem isNameChar_of_isDigit (hc : c.isDigit = true) : isNameChar c = true := by
  have hsmall : c.toNat < 0x80 := by
    have hle := toNat_le_of_isDigit hc
    omega
  simp [isNameChar, isAlphanumeric, isNumeric, hsmall, hc]

theorem digitValue?_eq (hc : c.isDigit = true) : digitValue? 10 c = some (c.toNat - '0'.toNat) := by
  have hle := toNat_le_of_isDigit hc
  have hzero : '0'.toNat = 48 := rfl
  unfold digitValue?
  simp only [hc, if_true]
  rw [if_pos (by omega)]

theorem not_isSuffix_of_isDigit (hc : c.isDigit = true) :
    (c == 'u' || c == 'U' || c == 'l' || c == 'L') = false := by
  by_contra hsuffix
  simp only [Bool.not_eq_false, Bool.or_eq_true, beq_iff_eq] at hsuffix
  rcases hsuffix with ((rfl | rfl) | rfl) | rfl <;> cases hc

theorem readDigits?_eq (h : ∀ c ∈ s, c.isDigit = true) (acc : Nat) :
    readDigits? 10 acc s = some (Nat.ofDigitChars 10 s acc) := by
  induction s generalizing acc with
  | nil => rfl
  | cons c s ih =>
    obtain ⟨hc, hs⟩ := List.forall_mem_cons.mp h
    rw [readDigits?, digitValue?_eq hc, Nat.ofDigitChars_cons, Nat.mul_comm 10 acc]
    exact ih hs _

theorem readSigned?_eq (h : ∀ c ∈ s, c.isDigit = true) (hne : s ≠ [])
    (hn : Nat.ofDigitChars 10 s 0 < 0x8000000000000000) :
    readSigned? 10 s = some (Nat.ofDigitChars 10 s 0 : Int) := by
  unfold readSigned?
  split
  next heq =>
  split at heq
  · cases h '-' List.mem_cons_self
  · cases h '+' List.mem_cons_self
  · cases heq
    simp only [readDigits?_eq h, List.isEmpty_iff, hne, if_false, Bool.false_eq_true]
    rw [if_pos (by omega)]

theorem readSigned?_bounds {base : Nat} {v : Int} (h : readSigned? base s = some v) :
    -0x8000000000000000 ≤ v ∧ v < 0x8000000000000000 := by
  unfold readSigned? at h
  split at h
  next =>
  split at h
  · cases h
  · split at h
    · cases h
    · obtain ⟨hv, heq⟩ := Option.ite_none_right_eq_some.mp h
      obtain rfl := Option.some.inj heq
      exact hv

/-- What is read fits into 64 bits. -/
theorem readInteger?_bounds {s : String} {v : Int} (h : readInteger? s = some v) :
    -0x8000000000000000 ≤ v ∧ v < 0x8000000000000000 := by
  unfold readInteger? at h
  split at h
  next negative digits _ =>
  obtain ⟨w, hw, rfl⟩ := Option.map_eq_some_iff.mp h
  have hbounds : -0x8000000000000000 ≤ w ∧ w < 0x8000000000000000 := by
    split at hw <;> exact readSigned?_bounds hw
  cases negative with
  | false => exact hbounds
  | true =>
    have hle : -(0x10000000000000000 : Nat) / 2 ≤ (-w).bmod 0x10000000000000000 :=
      Int.le_bmod (by decide)
    have hlt : (-w).bmod 0x10000000000000000 < ((0x10000000000000000 : Nat) + 1 : Int) / 2 :=
      Int.bmod_lt (by decide)
    simp only [if_true]
    omega

example : readInteger? "--9223372036854775808" = some (-9223372036854775808) := by decide

/-! ### Numbers -/

theorem isDigit_of_mem_toString (hc : c ∈ (toString n).toList) : c.isDigit = true := by
  rw [Nat.toString_eq_ofList_toDigits, String.toList_ofList] at hc
  exact Nat.isDigit_of_mem_toDigits (by decide) (by decide) hc

theorem isNameChar_of_mem_toString (hc : c ∈ (toString n).toList) : isNameChar c = true :=
  isNameChar_of_isDigit (isDigit_of_mem_toString hc)

theorem ofDigitChars_toString (n : Nat) : Nat.ofDigitChars 10 (toString n).toList 0 = n := by
  rw [Nat.toString_eq_ofList_toDigits, String.toList_ofList, Nat.ofDigitChars_ten_toDigits]

theorem eq_of_toString_eq {m n : Nat} (h : toString m = toString n) : m = n := by
  rw [← ofDigitChars_toString m, h, ofDigitChars_toString]

theorem toList_toString_ne_nil (n : Nat) : (toString n).toList ≠ [] := by
  rw [Nat.toString_eq_ofList_toDigits, String.toList_ofList]
  exact Nat.toDigits_ne_nil

/-- A decimal number that fits into 64 bits is read as itself. -/
theorem readInteger?_toString (hn : n < 0x8000000000000000) :
    readInteger? (toString n) = some (n : Int) := by
  have hdigits : ∀ c ∈ (toString n).toList, c.isDigit = true := fun _ => isDigit_of_mem_toString
  have hvalue := ofDigitChars_toString n
  have hsigned := readSigned?_eq hdigits (toList_toString_ne_nil n) (by rwa [hvalue])
  rw [hvalue] at hsigned
  unfold readInteger?
  generalize (toString n).toList = s at *
  split
  next heq =>
  split at heq
  · cases hdigits '-' List.mem_cons_self
  · cases heq
    have hsuffix := dropEndWhile_eq_self fun c hc => not_isSuffix_of_isDigit (hdigits c hc)
    simp only [hsuffix, Bool.false_eq_true, if_false]
    split
    · cases hdigits 'x' (by simp)
    · cases hdigits 'X' (by simp)
    · rw [hsigned]
      rfl

theorem trim_toString (n : Nat) : trim (toString n) = toString n :=
  trim_eq_self fun _ hc => isBlank_of_isNameChar (isNameChar_of_mem_toString hc)

end BindingModel.Text
