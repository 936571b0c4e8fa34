import BindingModel.TypeExpr.Token
import Mathlib.Data.List.TakeWhile

/-! Scanning the text of lexical units gives these units again, when what follows a unit cannot
continue it. -/
namespace BindingModel

namespace Text

theorem isNumeric_of_isDigit {c : Char} (h : c.isDigit = true) : isNumeric c = true := by
  have hsmall : c.toNat < 0x80 := by
    simp only [Char.isDigit, Bool.and_eq_true, decide_eq_true_eq, UInt32.le_iff_toNat_le] at h
    have hle : c.toNat ≤ 57 := h.2
    omega
  unfold isNumeric
  rwa [if_pos hsmall]

end Text

namespace Token
open Text

/-- The text of an identifier. -/
def IsWord (w : String) : Prop :=
  ∃ c s, w.toList = c :: s ∧ isBlank c = false ∧ isNameStart c = true ∧
    ∀ x ∈ s, isNameChar x = true

/-- The text of a number. -/
def IsNumeral (d : String) : Prop :=
  ∃ c s, d.toList = c :: s ∧ isBlank c = false ∧ isNameStart c = false ∧
    startsNumber c s = true ∧ ∀ x ∈ s, isNumberChar x = true

/-- The text of the unit is one that a scan makes such a unit of. -/
def Lexed : Token → Prop
  | ident w => IsWord w
  | number d => IsNumeral d
  | _ => True

theorem startsNumber_takeWhile {c : Char} {s : List Char} (h : startsNumber c s = true) :
    startsNumber c (s.takeWhile isNumberChar) = true := by
  unfold startsNumber at h ⊢
  rw [Bool.or_eq_true] at h ⊢
  refine h.imp_right fun h => ?_
  cases s with
  | nil => simp at h
  | cons d s =>
    simp only [List.head?_cons, Option.any_some, Bool.and_eq_true] at h
    have hd : isNumberChar d = true := by
      unfold isNumberChar isAlphanumeric
      simp [isNumeric_of_isDigit h.2]
    rw [List.takeWhile_cons_of_pos hd]
    simpa using h

theorem startsNumber_append {c : Char} {s : List Char} (h : startsNumber c s = true)
    (rest : List Char) : startsNumber c (s ++ rest) = true := by
  unfold startsNumber at h ⊢
  cases s with
  | nil =>
    simp only [List.head?_nil, Option.any_none, Bool.and_false, Bool.or_false] at h
    simp [h]
  | cons d s => simpa using h

theorem lexed_ofChar (c : Char) : (ofChar c).Lexed := by
  unfold ofChar
  split <;> trivial

theorem text_ofChar (c : Char) : (ofChar c).text.toList = [c] := by
  unfold ofChar
  split <;> simp [Token.text]

/-- All units have a text that is scanned as such a unit. -/
def AllLexed (us : List Token) : Prop := ∀ u ∈ us, u.Lexed

theorem AllLexed.head {u : Token} {us : List Token} (h : AllLexed (u :: us)) : u.Lexed :=
  h u List.mem_cons_self

theorem AllLexed.tail {u : Token} {us : List Token} (h : AllLexed (u :: us)) : AllLexed us :=
  fun v hv => h v (List.mem_cons_of_mem u hv)

/-! ### Scanning one unit -/

/-- The first element, if there is one, is as `p` says. -/
def Starts {α : Type} (p : α → Prop) (l : List α) : Prop := ∀ a ∈ l.head?, p a

theorem Starts.nil {α : Type} {p : α → Prop} : Starts p [] := by
  intro a ha
  cases ha

theorem Starts.cons {α : Type} {p : α → Prop} {a : α} (h : p a) (l : List α) :
    Starts p (a :: l) := by
  intro b hb
  obtain rfl := Option.some.inj hb
  exact h

theorem Starts.append {α : Type} {p : α → Prop} {l m : List α} (hl : Starts p l)
    (hm : Starts p m) : Starts p (l ++ m) := by
  cases l with
  | nil => exact hm
  | cons a l => exact .cons (hl a rfl) _

theorem Starts.append_of_ne_nil {α : Type} {p : α → Prop} {l : List α} (hl : Starts p l)
    (hne : l ≠ []) (m : List α) : Starts p (l ++ m) := by
  obtain ⟨a, l, rfl⟩ := List.exists_cons_of_ne_nil hne
  exact .cons (hl a rfl) _

theorem Starts.mono {α : Type} {p q : α → Prop} {l : List α} (h : Starts p l)
    (hpq : ∀ a, p a → q a) : Starts q l := fun a ha => hpq a (h a ha)

/-- A character that cannot continue a name or a number. -/
def IsEnd (c : Char) : Prop := isNameChar c = false ∧ c ≠ '.'

instance : DecidablePred IsEnd := fun _ => inferInstanceAs (Decidable (_ ∧ _))

theorem IsEnd.isNumberChar {c : Char} (h : IsEnd c) : isNumberChar c = false := by
  obtain ⟨hname, hdot⟩ := h
  unfold isNameChar at hname
  unfold Token.isNumberChar
  rw [Bool.or_eq_false_iff] at hname ⊢
  exact ⟨hname.1, by simpa using hdot⟩

theorem takeWhile_append_of_head {p : Char → Bool} {s rest : List Char}
    (hs : ∀ c ∈ s, p c = true) (hrest : Starts (p · = false) rest) :
    (s ++ rest).takeWhile p = s ∧ (s ++ rest).dropWhile p = rest := by
  rw [List.takeWhile_append_of_pos hs, List.dropWhile_append_of_pos hs]
  cases rest with
  | nil => simp
  | cons c rest => simp [hrest c rfl]

/-- A scan makes this unit of its text; a character is `other` only if it is of no class and no
mark. -/
def IsProper : Token → Prop
  | other c => isBlank c = false ∧ isNameStart c = false ∧ c.isDigit = false ∧ ofChar c = other c
  | u => u.Lexed

/-- Before such a character the unit does not end: another one is read, or with two dots none. -/
def Continues : Token → Char → Prop
  | ident _, d => isNameChar d = true
  | number _, d => isNumberChar d = true
  | amp, d => d = '&'
  | other c, d => c ∈ [':', '.'] ∧ d = c ∨ c = '-' ∧ d.isDigit = true
  | _, _ => False

section
variable {rest : List Char}

theorem scan_blank {b : Char} (hb : isBlank b = true) : scan (b :: rest) = scan rest := by
  rw [scan.eq_def]
  dsimp only
  rw [if_pos hb]

/-- A character of no class is a unit by itself, if what follows does not continue it. -/
theorem scan_single {c : Char} (hblank : isBlank c = false) (hstart : isNameStart c = false)
    (hdigit : c.isDigit = false) (hend : Starts (¬ (ofChar c).Continues ·) rest) :
    scan (c :: rest) = (ofChar c :: ·) <$> scan rest := by
  have hnum : startsNumber c rest = false := by
    cases rest with
    | nil => simp [startsNumber, hdigit]
    | cons d s =>
      by_contra h
      obtain ⟨rfl, hd⟩ : c = '-' ∧ d.isDigit = true := by simpa [startsNumber, hdigit] using h
      exact hend d rfl (.inr ⟨rfl, hd⟩)
  rw [scan.eq_def]
  dsimp only
  rw [if_neg (by simp [hblank]), if_neg (by simp [hstart]), if_neg (by simp [hnum])]
  split
  · exact (hend ':' rfl (.inl ⟨by decide, rfl⟩)).elim
  · exact (hend '&' rfl rfl).elim
  · exact (hend '.' rfl (.inl ⟨by decide, rfl⟩)).elim
  · exact (hend '.' rfl (.inl ⟨by decide, rfl⟩)).elim
  · rfl

/-- A character that is a unit whatever follows it. -/
theorem scan_of_mark {c : Char} (hc : c ∈ ['<', '>', ',', '*', '[', ']', '(', ')']) :
    scan (c :: rest) = (ofChar c :: ·) <$> scan rest := by
  simp only [List.mem_cons, List.not_mem_nil, or_false] at hc
  rcases hc with rfl | rfl | rfl | rfl | rfl | rfl | rfl | rfl <;>
    exact scan_single (by decide) (by decide) (by decide) fun _ _ => not_false

/-- The text of a unit is scanned as this unit, if what follows does not continue it. -/
theorem scan_unit {u : Token} (hu : u.IsProper) (hend : Starts (¬ u.Continues ·) rest) :
    scan (u.text.toList ++ rest) = (u :: ·) <$> scan rest := by
  cases u with
  | ident w =>
    obtain ⟨c, s, hws, hblank, hstart, hs⟩ := hu
    obtain ⟨htake, hdrop⟩ := takeWhile_append_of_head hs
      (hend.mono fun _ hd => by simpa [Continues] using hd)
    have hw : String.ofList (c :: s) = w := by rw [← hws, String.ofList_toList]
    rw [text, hws, List.cons_append, scan.eq_def]
    dsimp only
    rw [if_neg (by simp [hblank]), if_pos hstart, htake, hdrop, hw]
  | number d =>
    obtain ⟨c, s, hds, hblank, hstart, hnum, hs⟩ := hu
    obtain ⟨htake, hdrop⟩ := takeWhile_append_of_head hs
      (hend.mono fun _ hd => by simpa [Continues] using hd)
    have hd : String.ofList (c :: s) = d := by rw [← hds, String.ofList_toList]
    rw [text, hds, List.cons_append, scan.eq_def]
    dsimp only
    rw [if_neg (by simp [hblank]), if_neg (by simp [hstart]),
      if_pos (startsNumber_append hnum rest), htake, hdrop, hd]
  | scope =>
    show scan (':' :: ':' :: rest) = _
    rw [scan.eq_def]
    dsimp only
    rw [if_neg (by decide), if_neg (by decide), if_neg (by simp [startsNumber])]
    rfl
  | ampAmp =>
    show scan ('&' :: '&' :: rest) = _
    rw [scan.eq_def]
    dsimp only
    rw [if_neg (by decide), if_neg (by decide), if_neg (by simp [startsNumber])]
    rfl
  | ellipsis =>
    show scan ('.' :: '.' :: '.' :: rest) = _
    rw [scan.eq_def]
    dsimp only
    rw [if_neg (by decide), if_neg (by decide), if_neg (by simp [startsNumber])]
    rfl
  | less => exact scan_of_mark (c := '<') (by decide)
  | greater => exact scan_of_mark (c := '>') (by decide)
  | comma => exact scan_of_mark (c := ',') (by decide)
  | star => exact scan_of_mark (c := '*') (by decide)
  | leftBracket => exact scan_of_mark (c := '[') (by decide)
  | rightBracket => exact scan_of_mark (c := ']') (by decide)
  | leftParen => exact scan_of_mark (c := '(') (by decide)
  | rightParen => exact scan_of_mark (c := ')') (by decide)
  | amp => exact scan_single (c := '&') (by decide) (by decide) (by decide) hend
  | other c =>
    obtain ⟨hblank, hstart, hdigit, hkind⟩ := hu
    rw [← hkind] at hend
    have hsingle := scan_single hblank hstart hdigit hend
    rw [hkind] at hsingle
    simpa [text] using hsingle

end

section
variable {rest : List Char} {vs : List Token} (h : scan rest = some vs)
include h

theorem scan_word {w : String} (hw : IsWord w) (hrest : Starts IsEnd rest) :
    scan (w.toList ++ rest) = some (ident w :: vs) := by
  have hword := scan_unit (u := ident w) hw (hrest.mono fun _ hc => by simp [Continues, hc.1])
  rwa [h] at hword

theorem scan_numeral {d : String} (hd : IsNumeral d) (hrest : Starts IsEnd rest) :
    scan (d.toList ++ rest) = some (number d :: vs) := by
  have hnumber := scan_unit (u := number d) hd
    (hrest.mono fun _ hc => by simp [Continues, hc.isNumberChar])
  rwa [h] at hnumber

theorem scan_space : scan (' ' :: rest) = some vs := by
  rw [scan_blank (by decide), h]

theorem scan_mark {c : Char} (hc : c ∈ ['<', '>', ',', '*', '[', ']', '(', ')']) :
    scan (c :: rest) = some (ofChar c :: vs) := by
  rw [scan_of_mark hc, h]
  rfl

theorem scan_scope : scan (':' :: ':' :: rest) = some (scope :: vs) := by
  have hend : Starts (¬ scope.Continues ·) rest := fun _ _ => not_false
  have hscope := scan_unit (u := scope) trivial hend
  rwa [h] at hscope

theorem scan_amp (hrest : Starts (· ≠ '&') rest) : scan ('&' :: rest) = some (amp :: vs) := by
  have hamp := scan_unit (u := amp) trivial hrest
  rwa [h] at hamp

theorem scan_ampAmp : scan ('&' :: '&' :: rest) = some (ampAmp :: vs) := by
  have hend : Starts (¬ ampAmp.Continues ·) rest := fun _ _ => not_false
  have hampAmp := scan_unit (u := ampAmp) trivial hend
  rwa [h] at hampAmp

theorem scan_ellipsis : scan ('.' :: '.' :: '.' :: rest) = some (ellipsis :: vs) := by
  have hend : Starts (¬ ellipsis.Continues ·) rest := fun _ _ => not_false
  have hellipsis := scan_unit (u := ellipsis) trivial hend
  rwa [h] at hellipsis

end

end Token
end BindingModel
