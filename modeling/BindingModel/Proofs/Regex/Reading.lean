import BindingModel.Proofs.Pattern
import BindingModel.Proofs.Regex.Matching
import BindingModel.Regex.Engine

/-! The engine does with the parts of a source what its documentation says: it reads them one by
one, and its search finds what they stand for. -/
namespace BindingModel.Regex
open Pattern

variable {c : Char} {s : Single} {p : Part} {parts : List Part}

/-! ### Reading -/

def ofSingle : Single → Regex
  | .plain c _ | .escaped c _ => char c
  | .dot => any

def ofPart : Part → Regex
  | .textStart => anchor .textStart
  | .textEnd => anchor .textEnd
  | .one s => ofSingle s
  | .run s => (ofSingle s).times 0 none

def marksOf : Part → List Mark
  | .run s => [.atom (ofSingle s), .times 0 none]
  | p => [.atom (ofPart p)]

theorem ofChar?_of_isMeta (h : isMeta c = true) : Escape.ofChar? c = some (.char c) := by
  have hc : c ∈ "\\.+*?()|[]\x7b\x7d^$#&-~".toList := by simpa [isMeta] using h
  simp only [String.reduceToList, List.mem_cons, List.not_mem_nil, or_false] at hc
  rcases hc with rfl | rfl | rfl | rfl | rfl | rfl | rfl | rfl | rfl | rfl | rfl | rfl | rfl | rfl |
    rfl | rfl | rfl | rfl <;> rfl

theorem marks?_escaped (h : isMeta c = true) (n : Nat) (rest : List Char) :
    marks? (n + 1) ('\\' :: c :: rest) = (.atom (.char c) :: ·) <$> marks? n rest := by
  rw [marks?, ofChar?_of_isMeta h]
  rfl

theorem marks?_plain (h : isMeta c = false) (n : Nat) (rest : List Char) :
    marks? (n + 1) (c :: rest) = (.atom (.char c) :: ·) <$> marks? n rest := by
  rw [marks?]
  all_goals
    intros
    subst_vars
    exact absurd h (by decide)

theorem marks?_single (s : Single) (n : Nat) (rest : List Char) :
    marks? (n + 1) (s.spelled ++ rest) = (.atom (ofSingle s) :: ·) <$> marks? n rest := by
  cases s with
  | plain c h => exact marks?_plain h n rest
  | escaped c h => exact marks?_escaped h n rest
  | dot => rfl

/-- No part begins with the mark that would make a run before it a lazy one. -/
theorem dropLazy_flatMap_spelled (parts : List Part) :
    dropLazy (parts.flatMap Part.spelled) = parts.flatMap Part.spelled := by
  have hsingle : ∀ (s : Single) (rest : List Char),
      dropLazy (s.spelled ++ rest) = s.spelled ++ rest := by
    intro s rest
    cases s with
    | plain c h =>
      unfold Single.spelled dropLazy
      split
      · next heq =>
        obtain ⟨rfl, -⟩ := List.cons.inj heq
        exact absurd h (by decide)
      · rfl
    | escaped c h => rfl
    | dot => rfl
  cases parts with
  | nil => rfl
  | cons p parts =>
    cases p with
    | textStart | textEnd => rfl
    | one s => exact hsingle s _
    | run s =>
      rw [List.flatMap_cons, Part.spelled, List.append_assoc]
      exact hsingle s _

theorem length_marksOf_le (p : Part) : (marksOf p).length ≤ p.spelled.length := by
  cases p with
  | textStart | textEnd => simp [marksOf, Part.spelled]
  | one s => cases s <;> simp [marksOf, Part.spelled, Single.spelled]
  | run s => cases s <;> simp [marksOf, Part.spelled, Single.spelled]

/-- The parts of a source are read one by one. -/
theorem marks?_flatMap_spelled (parts : List Part) (n : Nat) :
    marks? (n + (parts.flatMap marksOf).length) (parts.flatMap Part.spelled) =
      some (parts.flatMap marksOf) := by
  induction parts with
  | nil => cases n <;> rfl
  | cons p parts ih =>
    have hrest : (p :: parts).flatMap Part.spelled = p.spelled ++ parts.flatMap Part.spelled := rfl
    have hmarks : (p :: parts).flatMap marksOf = marksOf p ++ parts.flatMap marksOf := rfl
    rw [hrest, hmarks, List.length_append, Nat.add_left_comm, Nat.add_comm (marksOf p).length]
    generalize n + (parts.flatMap marksOf).length = k at ih
    cases p with
    | textStart =>
      have hread : marks? (k + 1) ('^' :: parts.flatMap Part.spelled) =
          (.atom (anchor .textStart) :: ·) <$> marks? k (parts.flatMap Part.spelled) := rfl
      exact hread.trans (congrArg _ ih)
    | textEnd =>
      have hread : marks? (k + 1) ('$' :: parts.flatMap Part.spelled) =
          (.atom (anchor .textEnd) :: ·) <$> marks? k (parts.flatMap Part.spelled) := rfl
      exact hread.trans (congrArg _ ih)
    | one s =>
      rw [Part.spelled]
      exact (marks?_single s k _).trans (congrArg _ ih)
    | run s =>
      have hstar : marks? (k + 1) ('*' :: parts.flatMap Part.spelled) =
          (.times 0 none :: ·) <$> marks? k (dropLazy (parts.flatMap Part.spelled)) := rfl
      rw [dropLazy_flatMap_spelled, ih] at hstar
      rw [Part.spelled, List.append_assoc]
      exact (marks?_single s (k + 1) _).trans (congrArg _ hstar)

/-- The factors in sequence. -/
def inSequence (rs : List Regex) : Regex := rs.foldr seq empty

theorem build?_marksOf (parts : List Part) (fs : List Regex) :
    build? [] { factors := fs } (parts.flatMap marksOf) =
      some (inSequence (fs.reverse ++ parts.map ofPart)) := by
  induction parts generalizing fs with
  | nil =>
    have hclose : sequence fs = inSequence fs.reverse := List.foldr_reverse.symm
    simp [build?, Group.close, hclose]
  | cons p parts ih =>
    have hmarks : (p :: parts).flatMap marksOf = marksOf p ++ parts.flatMap marksOf := rfl
    have hread : build? [] { factors := fs } (marksOf p ++ parts.flatMap marksOf) =
        build? [] { factors := ofPart p :: fs } (parts.flatMap marksOf) := by
      cases p <;> rfl
    rw [hmarks, hread, ih]
    simp

theorem ofSource?_spelling (parts : List Part) :
    ofSource? (spelling parts) = some (inSequence (parts.map ofPart)) := by
  have hlength : (parts.flatMap marksOf).length ≤ (parts.flatMap Part.spelled).length := by
    induction parts with
    | nil => exact Nat.le_refl _
    | cons p parts ih =>
      have hp := length_marksOf_le p
      simp only [List.flatMap_cons, List.length_append]
      omega
  obtain ⟨n, hn⟩ := Nat.exists_eq_add_of_le' hlength
  unfold ofSource? spelling
  rw [String.length_ofList, String.toList_ofList, hn, marks?_flatMap_spelled]
  exact build?_marksOf parts []

/-! ### Matching -/

variable {text before rest : List Char} {k : Nat}

theorem matches_ofSingle_iff (htext : text = before ++ rest) :
    Matches text.toArray (ofSingle s) before.length k ↔
      ∃ d after, rest = d :: after ∧ s.Fits d ∧ k = before.length + 1 := by
  have hhead : ∀ d, text.toArray[before.length]? = some d ↔ ∃ after, rest = d :: after := by
    intro d
    rw [htext, List.getElem?_toArray, List.getElem?_append_right (Nat.le_refl _), Nat.sub_self]
    cases rest <;> simp
  cases s with
  | plain c h | escaped c h =>
    simp only [ofSingle, matches_char_iff, hhead, Single.Fits]
    constructor
    · rintro ⟨⟨after, rfl⟩, rfl⟩
      exact ⟨c, after, rfl, rfl, rfl⟩
    · rintro ⟨_, after, rfl, rfl, rfl⟩
      exact ⟨⟨after, rfl⟩, rfl⟩
  | dot =>
    simp only [ofSingle, matches_any_iff, hhead, Single.Fits]
    constructor
    · rintro ⟨⟨d, ⟨after, rfl⟩, hd⟩, rfl⟩
      exact ⟨d, after, rfl, hd, rfl⟩
    · rintro ⟨d, after, rfl, hd, rfl⟩
      exact ⟨⟨d, ⟨after, rfl⟩, hd⟩, rfl⟩

/-- A run goes on over characters that fit. -/
theorem matches_run_iff (htext : text = before ++ rest) :
    Matches text.toArray (star (ofSingle s)) before.length k ↔
      ∃ here after, rest = here ++ after ∧ (∀ d ∈ here, s.Fits d) ∧
        k = before.length + here.length := by
  constructor
  · intro h
    generalize hi : before.length = i at h
    rw [matches_star_iff] at h
    induction h using Relation.ReflTransGen.head_induction_on generalizing before rest with
    | refl => exact ⟨[], rest, rfl, by simp, rfl⟩
    | @head i j hfirst _ ih =>
      subst hi
      obtain ⟨d, rest, rfl, hd, rfl⟩ := (matches_ofSingle_iff htext).mp hfirst
      have hnext : text = (before ++ [d]) ++ rest := by simpa using htext
      obtain ⟨here, after, rfl, hhere, rfl⟩ := ih hnext (by simp)
      exact ⟨d :: here, after, rfl, List.forall_mem_cons.mpr ⟨hd, hhere⟩, by simp; omega⟩
  · rintro ⟨here, after, rfl, hfits, rfl⟩
    induction here generalizing before with
    | nil => exact .stop _
    | cons d here ih =>
      obtain ⟨hd, hhere⟩ := List.forall_mem_cons.mp hfits
      have hfirst : Matches text.toArray (ofSingle s) before.length (before.length + 1) :=
        (matches_ofSingle_iff htext).mpr ⟨d, here ++ after, rfl, hd, rfl⟩
      have hnext : text = (before ++ [d]) ++ (here ++ after) := by simpa using htext
      have hrest := ih hnext hhere
      rw [List.length_append, List.length_singleton] at hrest
      rw [List.length_cons, Nat.add_comm here.length, ← Nat.add_assoc]
      exact .more hfirst hrest

theorem matches_ofPart_iff (htext : text = before ++ rest) :
    Matches text.toArray (ofPart p) before.length k ↔
      ∃ here after, rest = here ++ after ∧ p.Fits before here after ∧
        k = before.length + here.length := by
  cases p with
  | textStart =>
    simp only [ofPart, matches_anchor_iff, Anchor.holds, beq_iff_eq, Part.Fits]
    constructor
    · rintro ⟨hbefore, rfl⟩
      exact ⟨[], rest, rfl, ⟨List.eq_nil_of_length_eq_zero hbefore, rfl⟩, rfl⟩
    · rintro ⟨_, after, rfl, ⟨rfl, rfl⟩, rfl⟩
      exact ⟨rfl, rfl⟩
  | textEnd =>
    simp only [ofPart, matches_anchor_iff, Anchor.holds, beq_iff_eq, Part.Fits, List.size_toArray]
    constructor
    · rintro ⟨hend, rfl⟩
      have hrest : rest = [] := by
        rw [htext, List.length_append] at hend
        exact List.eq_nil_of_length_eq_zero (by omega)
      exact ⟨[], [], hrest, ⟨rfl, rfl⟩, rfl⟩
    · rintro ⟨_, _, rfl, ⟨rfl, rfl⟩, rfl⟩
      simp [htext]
  | one s =>
    rw [ofPart, matches_ofSingle_iff htext]
    constructor
    · rintro ⟨d, after, rfl, hd, rfl⟩
      exact ⟨[d], after, rfl, ⟨d, rfl, hd⟩, rfl⟩
    · rintro ⟨_, after, rfl, ⟨d, rfl, hd⟩, rfl⟩
      exact ⟨d, after, rfl, hd, rfl⟩
  | run s =>
    have hrun : Matches text.toArray (ofPart (.run s)) before.length k ↔
        Matches text.toArray (star (ofSingle s)) before.length k := by
      simp only [ofPart, times, copies, matches_seq_iff, matches_empty_iff, exists_eq_left]
    rw [hrun, matches_run_iff htext]
    rfl

theorem matches_inSequence_iff (htext : text = before ++ rest) :
    Matches text.toArray (inSequence (parts.map ofPart)) before.length k ↔
      ∃ here after, rest = here ++ after ∧ FitInTurn parts before here after ∧
        k = before.length + here.length := by
  induction parts generalizing before rest with
  | nil =>
    simp only [inSequence, List.map_nil, List.foldr_nil, matches_empty_iff, FitInTurn]
    constructor
    · rintro rfl
      exact ⟨[], rest, rfl, rfl, rfl⟩
    · rintro ⟨_, _, _, rfl, rfl⟩
      rfl
  | cons p parts ih =>
    have hcons : inSequence ((p :: parts).map ofPart) =
        seq (ofPart p) (inSequence (parts.map ofPart)) := rfl
    rw [hcons, matches_seq_iff]
    simp only [matches_ofPart_iff htext, FitInTurn]
    constructor
    · rintro ⟨_, ⟨a, rest, rfl, hp, rfl⟩, h⟩
      rw [← List.length_append] at h
      obtain ⟨b, after, rfl, hparts, rfl⟩ := (ih (by simpa using htext)).mp h
      exact ⟨a ++ b, after, by simp, ⟨a, b, rfl, hp, hparts⟩, by simp; omega⟩
    · rintro ⟨_, after, rfl, ⟨a, b, rfl, hp, hparts⟩, rfl⟩
      refine ⟨_, ⟨a, b ++ after, by simp, hp, rfl⟩, ?_⟩
      rw [← List.length_append]
      exact (ih (by simpa using htext)).mpr ⟨b, after, rfl, hparts, by simp; omega⟩

theorem occursIn_inSequence_iff :
    (inSequence (parts.map ofPart)).occursIn text = true ↔ FoundIn parts text := by
  rw [occursIn_iff]
  constructor
  · rintro ⟨i, hi, k, h⟩
    have hlength : (text.take i).length = i := List.length_take_of_le hi
    rw [← hlength] at h
    obtain ⟨here, after, hdrop, hfit, -⟩ :=
      (matches_inSequence_iff (List.take_append_drop i text).symm).mp h
    refine ⟨text.take i, here, after, ?_, hfit⟩
    rw [List.append_assoc, ← hdrop, List.take_append_drop]
  · rintro ⟨before, here, after, rfl, hfit⟩
    refine ⟨before.length, by simp, before.length + here.length, ?_⟩
    exact (matches_inSequence_iff (List.append_assoc ..)).mpr ⟨here, after, rfl, hfit, rfl⟩

/-! ### The engine -/

theorem compile_spelling (parts : List Part) :
    compile (spelling parts) = .ok ⟨spelling parts,
      fun text => (inSequence (parts.map ofPart)).occursIn text.toList⟩ := by
  unfold compile
  rw [ofSource?_spelling]

theorem engine_documented : engine.Documented where
  escape_eq _ := rfl
  compiles parts := ⟨_, compile_spelling parts⟩
  search {parts p} h text := by
    obtain rfl := Except.ok.inj ((compile_spelling parts).symm.trans h)
    exact occursIn_inSequence_iff

end BindingModel.Regex
