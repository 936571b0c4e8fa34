import BindingModel.Proofs.Signature.Pieces
import BindingModel.Proofs.TypeExpr.Lexing

/-! A text is scanned in passes, each of which skips a blank or reads the longest unit in front. The
passes come to the end of the text, or to two dots without a third where a unit would begin. -/
namespace BindingModel

namespace Token
open Text
variable {u : Token} {us vs : List Token} {s t r : List Char} {c : Char} {n : ℕ}

/-! ### Units by themselves -/

/-- What no unit reaches over. -/
theorem isEnd_of_isBlank (hc : isBlank c = true) : IsEnd c := by
  refine ⟨isNameChar_of_isBlank hc, ?_⟩
  rintro rfl
  cases hc

theorem isBlank_of_isNumberChar (h : isNumberChar c = true) : isBlank c = false := by
  by_contra hblank
  have hnumber := (isEnd_of_isBlank (by simpa using hblank)).isNumberChar
  rw [h] at hnumber
  cases hnumber

theorem isProper_ofChar (hblank : isBlank c = false) (hstart : isNameStart c = false)
    (hdigit : c.isDigit = false) : (ofChar c).IsProper := by
  have hlexed := lexed_ofChar c
  cases hkind : ofChar c with
  | other d =>
    have htext := text_ofChar c
    obtain rfl : d = c := by simpa [hkind, text] using htext
    exact ⟨hblank, hstart, hdigit, hkind⟩
  | ident w => rwa [hkind] at hlexed
  | number d => rwa [hkind] at hlexed
  | _ => trivial

theorem continues_ofChar {d : Char} (h : (ofChar c).Continues d) :
    c ∈ [':', '&', '.'] ∧ d = c ∨ c = '-' ∧ d.isDigit = true := by
  unfold ofChar at h
  split at h
  -- Only `&` and a character without a kind of its own can be continued.
  case h_5 => exact .inl ⟨by decide, h⟩
  case h_10 =>
    have hsub : [':', '.'] ⊆ [':', '&', '.'] := by decide
    exact h.imp_left fun ⟨hc, hd⟩ => ⟨hsub hc, hd⟩
  all_goals exact h.elim

theorem IsProper.lexed (hu : u.IsProper) : u.Lexed := by
  cases u with
  | other c => trivial
  | _ => exact hu

theorem IsProper.scan_text (hu : u.IsProper) : scan u.text.toList = some [u] := by
  simpa [scan] using scan_unit hu .nil

theorem IsProper.text_ne_nil (hu : u.IsProper) : u.text.toList ≠ [] := by
  intro hnil
  have hscan := hu.scan_text
  rw [hnil, scan] at hscan
  cases hscan

theorem IsProper.all_not_blank (hu : u.IsProper) : u.text.toList.all (!isBlank ·) = true := by
  cases u with
  | ident w =>
    obtain ⟨c, s, hw, hblank, -, hs⟩ := hu
    simpa [text, hw, hblank] using fun x hx => isBlank_of_isNameChar (hs x hx)
  | number d =>
    obtain ⟨c, s, hd, hblank, -, -, hs⟩ := hu
    simpa [text, hd, hblank] using fun x hx => isBlank_of_isNumberChar (hs x hx)
  | other c =>
    obtain ⟨hblank, -⟩ := hu
    simp [text, hblank]
  | _ => decide

/-! ### One pass -/

/-- One pass over the text in front: the units that it reads, and the text that is left. A unit
reaches as far as it can. -/
inductive Pass : List Char → List Token → List Char → Prop
  | blank {c : Char} {s : List Char} (hc : isBlank c = true) : Pass (c :: s) [] s
  | unit {u : Token} {s : List Char} (hu : u.IsProper) (hend : Starts (¬ u.Continues ·) s) :
      Pass (u.text.toList ++ s) [u] s

/-- Two dots stand in front, and no third. -/
def DoubleDot (s : List Char) : Prop := ∃ r, s = '.' :: '.' :: r ∧ Starts (· ≠ '.') r

theorem Pass.scan (h : Pass s us t) : scan s = (us ++ ·) <$> scan t := by
  cases h with
  | blank hc => simp [scan_blank hc]
  | unit hu hend => exact scan_unit hu hend

theorem Pass.length_lt (h : Pass s us t) : t.length < s.length := by
  cases h with
  | blank => simp
  | unit hu =>
    have hpos := List.length_pos_iff.mpr hu.text_ne_nil
    rw [List.length_append]
    omega

theorem Pass.proper (h : Pass s us t) : ∀ u ∈ us, u.IsProper := by
  cases h with
  | blank => simp
  | unit hu => simpa using hu

theorem Pass.filter_eq (h : Pass s us t) :
    s.filter (!isBlank ·) = us.flatMap (·.text.toList) ++ t.filter (!isBlank ·) := by
  cases h with
  | blank hc => rw [List.filter_cons_of_neg (by simp [hc]), List.flatMap_nil, List.nil_append]
  | unit hu =>
    rw [List.filter_append, List.filter_eq_self.mpr (List.all_eq_true.mp hu.all_not_blank),
      List.flatMap_singleton]

theorem DoubleDot.scan (h : DoubleDot s) : scan s = none := by
  obtain ⟨r, rfl, hr⟩ := h
  rw [scan.eq_def]
  dsimp only
  rw [if_neg (by decide), if_neg (by decide), if_neg (by simp [startsNumber])]
  split
  · next heq => cases heq
  · next heq => cases heq
  · next heq =>
    cases heq
    exact absurd rfl (hr '.' rfl)
  · rfl
  · next hdot => exact (hdot _ rfl rfl).elim

theorem starts_dropWhile (p : Char → Bool) (s : List Char) :
    Starts (p · = false) (s.dropWhile p) := by
  intro c hc
  have hhead := List.head?_dropWhile_not p s
  rw [hc] at hhead
  simpa using hhead

/-- As long as text is left there is another pass, except before two dots without a third. -/
theorem exists_pass (hne : s ≠ []) (hdots : ¬ DoubleDot s) : ∃ us t, Pass s us t := by
  -- The classes of the first character are asked in the order in which a scan asks them.
  fun_cases scan s with
  | case1 => exact absurd rfl hne
  | case2 c s hblank => exact ⟨[], s, .blank hblank⟩
  | case3 c s hblank hstart =>
    have hword : (ident (.ofList (c :: s.takeWhile isNameChar))).IsProper :=
      ⟨c, _, String.toList_ofList, by simpa using hblank, hstart, fun x hx =>
        List.mem_takeWhile_imp hx⟩
    have hpass := Pass.unit hword <| (starts_dropWhile isNameChar s).mono fun _ hd => by
      simp [Continues, hd]
    rw [text, String.toList_ofList, List.cons_append, List.takeWhile_append_dropWhile] at hpass
    exact ⟨_, _, hpass⟩
  | case4 c s hblank hstart hnum =>
    have hnumber : (number (.ofList (c :: s.takeWhile isNumberChar))).IsProper :=
      ⟨c, _, String.toList_ofList, by simpa using hblank, by simpa using hstart,
        startsNumber_takeWhile hnum, fun x hx => List.mem_takeWhile_imp hx⟩
    have hpass := Pass.unit hnumber <| (starts_dropWhile isNumberChar s).mono fun _ hd => by
      simp [Continues, hd]
    rw [text, String.toList_ofList, List.cons_append, List.takeWhile_append_dropWhile] at hpass
    exact ⟨_, _, hpass⟩
  | case5 s => exact ⟨[scope], s, .unit (u := scope) trivial fun _ _ => not_false⟩
  | case6 s => exact ⟨[ampAmp], s, .unit (u := ampAmp) trivial fun _ _ => not_false⟩
  | case7 s => exact ⟨[ellipsis], s, .unit (u := ellipsis) trivial fun _ _ => not_false⟩
  | case8 s hdot =>
    refine absurd ⟨s, rfl, fun d hd => ?_⟩ hdots
    rintro rfl
    obtain ⟨r, rfl⟩ := List.head?_eq_some_iff.mp hd
    exact hdot r rfl
  | case9 c s hscope hamp _ hdot hblank hstart hnum =>
    have hdigit : c.isDigit = false := by
      by_contra hdigit
      exact hnum (by simp [startsNumber, hdigit])
    have hend : Starts (¬ (ofChar c).Continues ·) s := by
      intro d hd hcont
      obtain ⟨r, rfl⟩ := List.head?_eq_some_iff.mp hd
      obtain ⟨hc, rfl⟩ | ⟨rfl, hnext⟩ := continues_ofChar hcont
      · simp only [List.mem_cons, List.not_mem_nil, or_false] at hc
        rcases hc with rfl | rfl | rfl
        · exact hscope r rfl rfl
        · exact hamp r rfl rfl
        · exact hdot r rfl rfl
      · exact hnum (by simp [startsNumber, hnext])
    have hpass := Pass.unit (isProper_ofChar (by simpa using hblank) (by simpa using hstart) hdigit)
      hend
    rw [text_ofChar] at hpass
    exact ⟨_, _, hpass⟩

/-! ### Runs of passes -/

/-- In `n` passes over the text in front the units are read, and the rest is left. -/
inductive Passes : ℕ → List Char → List Token → List Char → Prop
  | start {s : List Char} : Passes 0 s [] s
  | pass {n : ℕ} {s t r : List Char} {us vs : List Token} (h : Pass s us t) (ht : Passes n t vs r) :
      Passes (n + 1) s (us ++ vs) r

/-- After some passes, two dots stand where a unit would begin, and no third follows them. -/
def MeetsDoubleDot (s : List Char) : Prop := ∃ n us t, Passes n s us t ∧ DoubleDot t

theorem Passes.scan (h : Passes n s us t) : scan s = (us ++ ·) <$> scan t := by
  induction h with
  | start => simp
  | pass h _ ih => simp [h.scan, ih, Function.comp_def]

theorem Passes.length_le (h : Passes n s us t) : n + t.length ≤ s.length := by
  induction h with
  | start => simp
  | pass h _ ih =>
    have hlt := h.length_lt
    omega

theorem Passes.proper (h : Passes n s us t) : ∀ u ∈ us, u.IsProper := by
  induction h with
  | start => simp
  | pass h _ ih =>
    intro u hu
    exact (List.mem_append.mp hu).elim (h.proper u) (ih u)

/-- The units hold all that was read, except the blanks. -/
theorem Passes.filter_eq (h : Passes n s us t) :
    s.filter (!isBlank ·) = us.flatMap (·.text.toList) ++ t.filter (!isBlank ·) := by
  induction h with
  | start => rfl
  | pass h _ ih => rw [h.filter_eq, ih, List.flatMap_append, List.append_assoc]

/-- A run goes on to the end of the text or to two dots without a third. -/
theorem exists_passes (s : List Char) : ∃ n us t, Passes n s us t ∧ (t = [] ∨ DoubleDot t) := by
  induction hn : s.length using Nat.strong_induction_on generalizing s with
  | _ k ih =>
    by_cases hstop : s = [] ∨ DoubleDot s
    · exact ⟨0, [], s, .start, hstop⟩
    · obtain ⟨hne, hdots⟩ := not_or.mp hstop
      obtain ⟨us, t, hpass⟩ := exists_pass hne hdots
      obtain ⟨n, vs, r, hrun, hend⟩ := ih t.length (hn ▸ hpass.length_lt) t rfl
      exact ⟨n + 1, us ++ vs, r, .pass hpass hrun, hend⟩

theorem scan_eq_some_of_passes (h : Passes n s us []) : scan s = some us := by
  simp [h.scan, scan]

theorem MeetsDoubleDot.scan (h : MeetsDoubleDot s) : scan s = none := by
  obtain ⟨n, us, t, hrun, hdots⟩ := h
  simp [hrun.scan, hdots.scan]

theorem scan_eq_none_iff : scan s = none ↔ MeetsDoubleDot s := by
  refine ⟨fun hscan => ?_, MeetsDoubleDot.scan⟩
  obtain ⟨n, us, t, hrun, rfl | hdots⟩ := exists_passes s
  · rw [scan_eq_some_of_passes hrun] at hscan
    cases hscan
  · exact ⟨n, us, t, hrun, hdots⟩

theorem scan_eq_some_iff : scan s = some us ↔ ∃ n, Passes n s us [] := by
  refine ⟨fun hscan => ?_, fun ⟨n, hrun⟩ => scan_eq_some_of_passes hrun⟩
  obtain ⟨n, vs, t, hrun, rfl | hdots⟩ := exists_passes s
  · obtain rfl := Option.some.inj (hscan.symm.trans (scan_eq_some_of_passes hrun))
    exact ⟨n, hrun⟩
  · rw [MeetsDoubleDot.scan ⟨n, vs, t, hrun, hdots⟩] at hscan
    cases hscan

theorem allLexed_of_scan (h : scan s = some us) : AllLexed us := by
  obtain ⟨n, hrun⟩ := scan_eq_some_iff.mp h
  exact fun u hu => (hrun.proper u hu).lexed

/-! ### Passes before a blank -/

theorem not_continues_of_isBlank (hc : isBlank c = true) (u : Token) : ¬ u.Continues c := by
  obtain ⟨hname, hdot⟩ := isEnd_of_isBlank hc
  have hdigit : c.isDigit = false := by
    by_contra h
    simp [isNameChar, isAlphanumeric, isNumeric_of_isDigit (by simpa using h)] at hname
  cases u with
  | ident w => simp [Continues, hname]
  | number d => simp [Continues, (isEnd_of_isBlank hc).isNumberChar]
  | amp =>
    rintro rfl
    cases hc
  | other d =>
    rintro (⟨hd, rfl⟩ | ⟨-, hd⟩)
    · simp only [List.mem_cons, List.not_mem_nil, or_false] at hd
      rcases hd with rfl | rfl <;> cases hc
    · rw [hdigit] at hd
      cases hd
  | _ => exact not_false

theorem Pass.append_blank (h : Pass s us t) (hc : isBlank c = true) (r : List Char) :
    Pass (s ++ c :: r) us (t ++ c :: r) := by
  cases h with
  | blank hb => exact .blank hb
  | @unit u t hu hend =>
    have hblank := Starts.cons (p := (¬ u.Continues ·)) (not_continues_of_isBlank hc u) r
    rw [List.append_assoc]
    exact .unit hu (hend.append hblank)

theorem Passes.append_blank (h : Passes n s us t) (hc : isBlank c = true) (r : List Char) :
    Passes n (s ++ c :: r) us (t ++ c :: r) := by
  induction h with
  | start => exact .start
  | pass h _ ih => exact .pass (h.append_blank hc r) ih

theorem DoubleDot.append_blank (h : DoubleDot s) (hc : isBlank c = true) (r : List Char) :
    DoubleDot (s ++ c :: r) := by
  obtain ⟨t, rfl, ht⟩ := h
  have hblank := Starts.cons (p := (· ≠ '.')) (isEnd_of_isBlank hc).2 r
  exact ⟨t ++ c :: r, rfl, ht.append hblank⟩

/-- No unit reaches over a blank. -/
theorem scan_append_blank {b : Char} (hb : isBlank b = true) (s t : List Char) :
    scan (s ++ b :: t) = (scan s).bind fun us => (scan t).map (us ++ ·) := by
  obtain ⟨n, us, r, hrun, rfl | hdots⟩ := exists_passes s
  · rw [(hrun.append_blank hb t).scan, List.nil_append, scan_blank hb, scan_eq_some_of_passes hrun]
    rfl
  · rw [(hrun.append_blank hb t).scan, (hdots.append_blank hb t).scan,
      MeetsDoubleDot.scan ⟨n, us, r, hrun, hdots⟩]
    rfl

end Token
end BindingModel
