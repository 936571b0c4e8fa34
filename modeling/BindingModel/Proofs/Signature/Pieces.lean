import BindingModel.Proofs.Signature.Normal
import BindingModel.Rule.Modification

/-! The words and marks of a signature. Two texts have the same normal form exactly if they are made
of the same ones in the same order. -/
namespace BindingModel

namespace Text
variable {c : Char}

theorem isNameChar_of_isBlank (h : isBlank c = true) : isNameChar c = false := by
  have hall : ∀ r ∈ whiteSpaceRanges, ∀ n ∈ List.range' r.1 (r.2 + 1 - r.1),
      isNameChar (Char.ofNat n) = false := by decide +kernel
  obtain ⟨r, hr, hc⟩ := List.any_eq_true.mp h
  simp only [Bool.and_eq_true, decide_eq_true_eq] at hc
  have hmem : c.toNat ∈ List.range' r.1 (r.2 + 1 - r.1) := by
    rw [List.mem_range'_1]
    omega
  have hname := hall r hr c.toNat hmem
  rwa [Char.ofNat_toNat] at hname

theorem isBlank_of_isNameChar (h : isNameChar c = true) : isBlank c = false := by
  by_contra hblank
  have hname := isNameChar_of_isBlank (by simpa using hblank)
  rw [h] at hname
  cases hname

end Text

namespace Signature
open Text
variable {s t w : List Char} {c d : Char} {last? : Option Char} {blank : Bool}

/-- The maximal runs of name characters, and by itself each other character that is not blank. -/
def pieces : List Char → List (List Char)
  | [] => []
  | c :: s =>
    if isBlank c then pieces s
    else if isNameChar c && s.head?.any isNameChar then
      match pieces s with
      | [] => [[c]]
      | p :: ps => (c :: p) :: ps
    else [c] :: pieces s

/-- A run of name characters. -/
def IsRun (w : List Char) : Prop := w ≠ [] ∧ ∀ c ∈ w, isNameChar c = true

/-- A character that stands by itself. -/
def IsMark (p : List Char) : Prop := ∃ c, p = [c] ∧ isNameChar c = false ∧ isBlank c = false

/-- The pieces one after another, with a space between two words. `last?` is the character before
them. -/
def spell : (last? : Option Char) → List (List Char) → List Char
  | _, [] => []
  | last?, p :: ps =>
    (if last?.any isNameChar && p.head?.any isNameChar then [' '] else []) ++ p ++
      spell p.getLast? ps

/-! ### The pieces of a text -/

theorem pieces_blank (hc : isBlank c = true) (s : List Char) :
    pieces (c :: s) = pieces s := by
  rw [pieces, if_pos hc]

theorem pieces_mark (hname : isNameChar c = false) (hblank : isBlank c = false)
    (s : List Char) : pieces (c :: s) = [c] :: pieces s := by
  rw [pieces, if_neg (by simp [hblank]), if_neg (by simp [hname])]

theorem pieces_single (hc : isNameChar c = true) (hs : s.head?.any isNameChar = false) :
    pieces (c :: s) = [c] :: pieces s := by
  rw [pieces, if_neg (by simp [isBlank_of_isNameChar hc]), if_neg (by simp [hs])]

theorem pieces_extend (hc : isNameChar c = true) (hd : isNameChar d = true)
    {p : List Char} {ps : List (List Char)} (hpieces : pieces (d :: s) = p :: ps) :
    pieces (c :: d :: s) = (c :: p) :: ps := by
  rw [pieces, if_neg (by simp [isBlank_of_isNameChar hc]), if_pos (by simp [hc, hd]), hpieces]

/-- The first run ends where no name character follows. -/
theorem pieces_run (hw : IsRun w) (ht : t.head?.any isNameChar = false) :
    pieces (w ++ t) = w :: pieces t := by
  obtain ⟨hne, hall⟩ := hw
  induction w with
  | nil => exact absurd rfl hne
  | cons c w ih =>
    obtain ⟨hc, hw⟩ := List.forall_mem_cons.mp hall
    cases w with
    | nil => exact pieces_single hc ht
    | cons d w => exact pieces_extend hc (hw d List.mem_cons_self) (ih (by simp) hw)

theorem exists_cons_of_head {p : Char → Bool} (h : s.head?.any p = true) :
    ∃ d r, s = d :: r ∧ p d = true := by
  cases s with
  | nil => cases h
  | cons d r => exact ⟨d, r, rfl, by simpa using h⟩

theorem exists_pieces_of_isNameChar (hc : isNameChar c = true) (s : List Char) :
    ∃ p ps, pieces (c :: s) = (c :: p) :: ps := by
  rw [pieces, if_neg (by simp [isBlank_of_isNameChar hc])]
  split
  · split
    · exact ⟨[], [], rfl⟩
    · exact ⟨_, _, rfl⟩
  · exact ⟨[], _, rfl⟩

theorem pieces_append (ht : t.head?.any isNameChar = false) :
    pieces (s ++ t) = pieces s ++ pieces t := by
  induction s with
  | nil => rfl
  | cons c s ih =>
    rw [List.cons_append]
    by_cases hblank : isBlank c = true
    · rw [pieces_blank hblank, pieces_blank hblank, ih]
    · have hblank : isBlank c = false := by simpa using hblank
      cases hc : isNameChar c with
      | false => rw [pieces_mark hc hblank, pieces_mark hc hblank, ih, List.cons_append]
      | true =>
        cases hnext : s.head?.any isNameChar with
        | false =>
          have hend : (s ++ t).head?.any isNameChar = false := by
            cases s with
            | nil => exact ht
            | cons d s => exact hnext
          rw [pieces_single hc hend, pieces_single hc hnext, ih, List.cons_append]
        | true =>
          obtain ⟨d, s, rfl, hd⟩ := exists_cons_of_head hnext
          obtain ⟨p, ps, hpieces⟩ := exists_pieces_of_isNameChar hd s
          rw [hpieces, List.cons_append] at ih
          rw [List.cons_append, pieces_extend hc hd ih, pieces_extend hc hd hpieces]
          rfl

theorem run_or_mark_of_mem (s : List Char) : ∀ p ∈ pieces s, IsRun p ∨ IsMark p := by
  induction s with
  | nil => simp [pieces]
  | cons c s ih =>
    by_cases hblank : isBlank c = true
    · rwa [pieces_blank hblank]
    · have hblank : isBlank c = false := by simpa using hblank
      rw [pieces, if_neg (by simp [hblank])]
      have hsingle : IsRun [c] ∨ IsMark [c] := by
        cases hc : isNameChar c with
        | false => exact .inr ⟨c, rfl, hc, hblank⟩
        | true => exact .inl ⟨by simp, by simp [hc]⟩
      split
      · next hrun =>
        rw [Bool.and_eq_true] at hrun
        obtain ⟨hc, hnext⟩ := hrun
        obtain ⟨d, s, rfl, hdname⟩ := exists_cons_of_head hnext
        obtain ⟨p, ps, hpieces⟩ := exists_pieces_of_isNameChar hdname s
        rw [hpieces] at ih ⊢
        obtain ⟨hfirst, hrest⟩ := List.forall_mem_cons.mp ih
        refine List.forall_mem_cons.mpr ⟨.inl ⟨by simp, ?_⟩, hrest⟩
        rcases hfirst with hrun | ⟨_, hsame, hmark, -⟩
        · exact List.forall_mem_cons.mpr ⟨hc, hrun.2⟩
        · obtain ⟨rfl, -⟩ := List.cons.inj hsame
          rw [hdname] at hmark
          cases hmark
      · exact List.forall_mem_cons.mpr ⟨hsingle, ih⟩

/-! ### The normal form and the pieces give each other -/

/-- A word that begins here is kept apart from a word before it. -/
theorem normalizeFrom_of_isNameChar (hc : isNameChar c = true)
    (h : blank = true ∨ last?.any isNameChar = false) :
    normalizeFrom last? blank (c :: s) =
      (if last?.any isNameChar then [' '] else []) ++ c :: normalizeFrom c false s := by
  rw [normalizeFrom, if_neg (by simp [isBlank_of_isNameChar hc])]
  rcases h with rfl | hlast
  · simp only [Bool.true_and, hc, Bool.and_true]
    split <;> rfl
  · simp [hlast]

/-- Where the text does not continue the word before it, its normal form is what its pieces spell. -/
theorem normalizeFrom_eq_spell (h : blank = true ∨ last?.any isNameChar = false ∨
    s.head?.any isNameChar = false) : normalizeFrom last? blank s = spell last? (pieces s) := by
  induction s generalizing last? blank with
  | nil => rfl
  | cons c s ih =>
    by_cases hblank : isBlank c = true
    · rw [pieces_blank hblank, normalizeFrom, if_pos hblank]
      exact ih (.inl rfl)
    · have hblank : isBlank c = false := by simpa using hblank
      cases hc : isNameChar c with
      | false =>
        rw [pieces_mark hc hblank, normalizeFrom, if_neg (by simp [hblank]), if_neg (by simp [hc]),
          ih (.inr (.inl (by simp [hc])))]
        simp [spell, hc]
      | true =>
        have hstart : blank = true ∨ last?.any isNameChar = false := by simpa [hc] using h
        rw [normalizeFrom_of_isNameChar hc hstart]
        cases hnext : s.head?.any isNameChar with
        | false =>
          rw [ih (.inr (.inr hnext)), pieces_single hc hnext]
          simp [spell, hc]
        | true =>
          obtain ⟨d, s, rfl, hdname⟩ := exists_cons_of_head hnext
          obtain ⟨p, ps, hpieces⟩ := exists_pieces_of_isNameChar hdname s
          -- Inside a word the character before does not matter.
          have hinside : normalizeFrom c false (d :: s) = normalizeFrom none false (d :: s) := by
            simp [normalizeFrom, isBlank_of_isNameChar hdname]
          rw [hinside, ih (.inr (.inl rfl)), pieces_extend hc hdname hpieces, hpieces]
          simp [spell, hc]

theorem not_isNameChar_head_spell {ps : List (List Char)}
    (hps : ∀ p ∈ ps, IsRun p ∨ IsMark p) (hlast : last?.any isNameChar = true) :
    (spell last? ps).head?.any isNameChar = false := by
  cases ps with
  | nil => rfl
  | cons p ps =>
    have hspace : isNameChar ' ' = false := by decide
    rcases hps p List.mem_cons_self with ⟨hne, hall⟩ | ⟨c, rfl, hc, -⟩
    · obtain ⟨c, w, rfl⟩ := List.exists_cons_of_ne_nil hne
      have hc : isNameChar c = true := hall c List.mem_cons_self
      simp [spell, hlast, hc, hspace]
    · simp [spell, hc]

/-- Pieces can be read off what they spell. -/
theorem pieces_spell {ps : List (List Char)} (hps : ∀ p ∈ ps, IsRun p ∨ IsMark p) :
    pieces (spell last? ps) = ps := by
  induction ps generalizing last? with
  | nil => rfl
  | cons p ps ih =>
    obtain ⟨hp, hrest⟩ := List.forall_mem_cons.mp hps
    have hspace : pieces (spell last? (p :: ps)) = pieces (p ++ spell p.getLast? ps) := by
      rw [spell]
      split
      · exact pieces_blank (by decide) _
      · rfl
    rw [hspace]
    rcases hp with hrun | ⟨c, rfl, hc, hblank⟩
    · have hlast : p.getLast?.any isNameChar = true := by
        rw [List.getLast?_eq_getLast_of_ne_nil hrun.1]
        exact hrun.2 _ (List.getLast_mem hrun.1)
      rw [pieces_run hrun (not_isNameChar_head_spell hrest hlast), ih hrest]
    · rw [List.cons_append, List.nil_append, pieces_mark hc hblank, ih hrest]

theorem pieces_normalize (s : String) : pieces (normalize s).toList = pieces s.toList := by
  unfold normalize
  rw [String.toList_ofList, normalizeFrom_eq_spell (.inr (.inl rfl)),
    pieces_spell (run_or_mark_of_mem s.toList)]

theorem normalize_eq_iff {a b : String} :
    normalize a = normalize b ↔ pieces a.toList = pieces b.toList := by
  constructor
  · intro h
    rw [← pieces_normalize a, h, pieces_normalize]
  · intro h
    unfold normalize
    rw [normalizeFrom_eq_spell (.inr (.inl rfl)), normalizeFrom_eq_spell (.inr (.inl rfl)), h]

/-- Two signatures have the same normal form exactly if they have the same words and marks in the
same order, and it depends on that alone whether a rule for the one covers the other. -/
theorem same_pieces_iff (a b : String) :
    (normalize a = normalize b ↔ pieces a.toList = pieces b.toList) ∧
      normalize (normalize a) = normalize a ∧
      ((FunctionMod.ofSignature a).covers b = true ↔ pieces a.toList = pieces b.toList) ∧
      ∀ m : FunctionMod, (m.forSignature a).covers b = true ↔ pieces a.toList = pieces b.toList := by
  have hcovers : (FunctionTarget.signature (normalize a)).covers b = true ↔
      pieces a.toList = pieces b.toList := by
    unfold FunctionTarget.covers
    rw [beq_iff_eq, normalize_eq_iff]
  exact ⟨normalize_eq_iff, normalize_normalize a, hcovers, fun _ => hcovers⟩

example : pieces "f( unsigned  int&x )".toList =
    ["f", "(", "unsigned", "int", "&", "x", ")"].map String.toList := by decide +kernel

end Signature
end BindingModel
