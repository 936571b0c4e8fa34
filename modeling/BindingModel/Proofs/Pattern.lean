import BindingModel.Pattern

/-! What the documentation of an engine says of the sources that rules without regular expressions
come to: of characters that stand for themselves, of the dot, of runs, and of the ends of a text. -/
namespace BindingModel.Pattern

/-- A part of a source that stands for one character. -/
inductive Single
  | plain (c : Char) (h : isMeta c = false)
  | escaped (c : Char) (h : isMeta c = true)
  | dot

namespace Single

def spelled : Single → List Char
  | plain c _ => [c]
  | escaped c _ => ['\\', c]
  | dot => ['.']

/-- A plain or an escaped character stands for itself, the dot for any but a line feed. -/
def Fits : Single → Char → Prop
  | plain c _, d | escaped c _, d => d = c
  | dot, d => d ≠ '\n'

def ofChar (c : Char) : Single :=
  if h : isMeta c = true then escaped c h else plain c (Bool.eq_false_iff.mpr h)

@[simp]
theorem spelled_ofChar (c : Char) : (ofChar c).spelled = escapeChar c := by
  unfold ofChar escapeChar
  split <;> rfl

@[simp]
theorem fits_ofChar_iff {c d : Char} : (ofChar c).Fits d ↔ d = c := by
  unfold ofChar
  split <;> rfl

end Single

/-- A part of a source. -/
inductive Part
  | textStart
  | textEnd
  | one (s : Single)
  /-- Any number of characters, one after another. -/
  | run (s : Single)

namespace Part

def spelled : Part → List Char
  | textStart => ['^']
  | textEnd => ['$']
  | one s => s.spelled
  | run s => s.spelled ++ ['*']

/-- The part stands for the middle one of three pieces of a text. -/
def Fits : Part → (before here after : List Char) → Prop
  | textStart, before, here, _ => before = [] ∧ here = []
  | textEnd, _, here, after => here = [] ∧ after = []
  | one s, _, here, _ => ∃ c, here = [c] ∧ s.Fits c
  | run s, _, here, _ => ∀ c ∈ here, s.Fits c

end Part

/-- The source with these parts. -/
def spelling (parts : List Part) : String := .ofList (parts.flatMap Part.spelled)

/-- The parts, one after another, stand for the middle one of three pieces of a text. -/
def FitInTurn : List Part → (before here after : List Char) → Prop
  | [], _, here, _ => here = []
  | p :: parts, before, here, after => ∃ a b, here = a ++ b ∧ p.Fits before a (b ++ after) ∧
      FitInTurn parts (before ++ a) b after

/-- Some piece of the text is what the parts stand for. -/
def FoundIn (parts : List Part) (text : List Char) : Prop :=
  ∃ before here after, text = before ++ here ++ after ∧ FitInTurn parts before here after

/-- The documented behavior of an engine. -/
structure Engine.Documented (E : Engine) : Prop where
  /-- A backslash before each character with a meaning of its own. -/
  escape_eq (text : String) : E.escape text = .ofList (text.toList.flatMap escapeChar)
  /-- Sources with these parts are well-formed. -/
  compiles (parts : List Part) : ∃ p, E.compile (spelling parts) = .ok p
  /-- A search is not bound to any place in the text. -/
  search {parts : List Part} {p : Pattern} (h : E.compile (spelling parts) = .ok p)
    (text : String) : p.occursIn text = true ↔ FoundIn parts text.toList

/-! ### Literal texts -/

variable {s before here after text : List Char} {parts : List Part}

theorem fitInTurn_one_cons_iff {c : Single} :
    FitInTurn (.one c :: parts) before here after ↔
      ∃ d b, here = d :: b ∧ c.Fits d ∧ FitInTurn parts (before ++ [d]) b after := by
  constructor
  · rintro ⟨a, b, rfl, ⟨d, rfl, hd⟩, h⟩
    exact ⟨d, b, rfl, hd, h⟩
  · rintro ⟨d, b, rfl, hd, h⟩
    exact ⟨[d], b, rfl, ⟨d, rfl, hd⟩, h⟩

/-- The parts of a text that stands for itself. -/
def literal (s : List Char) : List Part := s.map (.one ∘ .ofChar)

theorem spelled_literal (s : List Char) :
    (literal s).flatMap Part.spelled = s.flatMap escapeChar := by
  simp [literal, List.flatMap_map, Part.spelled]

theorem fitInTurn_literal_append_iff :
    FitInTurn (literal s ++ parts) before here after ↔
      ∃ b, here = s ++ b ∧ FitInTurn parts (before ++ s) b after := by
  induction s generalizing before here with
  | nil => simp [literal]
  | cons c s ih =>
    have hcons : literal (c :: s) ++ parts = .one (.ofChar c) :: (literal s ++ parts) := rfl
    rw [hcons, fitInTurn_one_cons_iff]
    simp only [Single.fits_ofChar_iff, ih, List.append_assoc, List.singleton_append]
    constructor
    · rintro ⟨_, _, rfl, rfl, b, rfl, h⟩
      exact ⟨b, rfl, h⟩
    · rintro ⟨b, rfl, h⟩
      exact ⟨c, s ++ b, rfl, rfl, b, rfl, h⟩

theorem fitInTurn_textStart_cons_iff :
    FitInTurn (.textStart :: parts) before here after ↔
      before = [] ∧ FitInTurn parts [] here after := by
  constructor
  · rintro ⟨a, b, rfl, ⟨rfl, rfl⟩, h⟩
    exact ⟨rfl, h⟩
  · rintro ⟨rfl, h⟩
    exact ⟨[], here, rfl, ⟨rfl, rfl⟩, h⟩

theorem fitInTurn_textEnd_iff :
    FitInTurn [.textEnd] before here after ↔ here = [] ∧ after = [] := by
  constructor
  · rintro ⟨a, b, rfl, ⟨rfl, hafter⟩, rfl⟩
    exact ⟨rfl, hafter⟩
  · rintro ⟨rfl, rfl⟩
    exact ⟨[], [], rfl, ⟨rfl, rfl⟩, rfl⟩

/-- A text between the ends of the text is found in itself only. -/
theorem foundIn_literal_iff :
    FoundIn (.textStart :: (literal s ++ [.textEnd])) text ↔ text = s := by
  unfold FoundIn
  simp only [fitInTurn_textStart_cons_iff, fitInTurn_literal_append_iff, fitInTurn_textEnd_iff]
  constructor
  · rintro ⟨_, _, _, rfl, rfl, _, rfl, rfl, rfl⟩
    simp
  · rintro rfl
    exact ⟨[], text, [], by simp, rfl, [], by simp, rfl, rfl⟩

/-- A run of dots between the ends of the text is found in the texts of one line. -/
theorem foundIn_line_iff : FoundIn [.textStart, .run .dot, .textEnd] text ↔ '\n' ∉ text := by
  unfold FoundIn
  simp only [fitInTurn_textStart_cons_iff]
  constructor
  · rintro ⟨_, _, _, rfl, rfl, line, _, rfl, hline, hend⟩
    obtain ⟨rfl, rfl⟩ := fitInTurn_textEnd_iff.mp hend
    simpa using fun h => hline _ h rfl
  · intro h
    refine ⟨[], text, [], by simp, rfl, text, [], by simp, ?_, fitInTurn_textEnd_iff.mpr ⟨rfl, rfl⟩⟩
    intro c hc heq
    exact h (heq ▸ hc)

end BindingModel.Pattern
