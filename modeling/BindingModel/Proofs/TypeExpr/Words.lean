import BindingModel.Proofs.Text.Split
import BindingModel.Proofs.TypeExpr.Scanning
import BindingModel.TypeExpr.Reader

/-! The units of a text are those of its words, one word after another, so it makes no difference by
how many blanks the words are kept apart. The texts of units, kept apart as words, give these units
again. -/
namespace BindingModel

namespace Token
open Text

/-- The units of some words, one word after another. -/
def scanWords : List String → Option (List Token)
  | [] => some []
  | w :: ws => (scan w.toList).bind fun us => (scanWords ws).map (us ++ ·)

theorem scanWords_append (ws vs : List String) :
    scanWords (ws ++ vs) = (scanWords ws).bind fun us => (scanWords vs).map (us ++ ·) := by
  induction ws with
  | nil => simp [scanWords]
  | cons w ws ih =>
    rw [List.cons_append, scanWords, scanWords, ih]
    cases scan w.toList <;> cases scanWords ws <;> cases scanWords vs <;> simp

theorem scanWords_singleton (w : String) : scanWords [w] = scan w.toList := by
  simp [scanWords]

theorem scan_joinWith (ws : List String) : scan (joinWith " " ws).toList = scanWords ws := by
  induction ws with
  | nil => simp [joinWith, scanWords, scan]
  | cons w ws ih =>
    cases ws with
    | nil => rw [scanWords_singleton, joinWith]
    | cons v ws =>
      have happend := scan_append_blank (b := ' ') (by decide) w.toList
        (joinWith " " (v :: ws)).toList
      rw [ih] at happend
      rw [scanWords, ← happend, joinWith]
      simp

theorem scan_words (s : String) : scan s.toList = scanWords (words s) := by
  suffices hsplit : ∀ l : List Char,
      scan l = scanWords (((splitBy isBlank l).filter (!·.isEmpty)).map .ofList) from hsplit _
  intro l
  have hword : ∀ (w : List Char) (ws : List (List Char)),
      scanWords (((w :: ws).filter (!·.isEmpty)).map .ofList) =
        (scan w).bind fun us => (scanWords ((ws.filter (!·.isEmpty)).map .ofList)).map (us ++ ·) := by
    intro w ws
    cases w with
    | nil => simp [scan]
    | cons c w => simp [scanWords]
  -- The first word ends at the first blank, if there is one.
  induction hn : l.length using Nat.strong_induction_on generalizing l with
  | _ n ih =>
    have hfront : ∀ c ∈ l.takeWhile (!isBlank ·), isBlank c = false := by
      intro c hc
      simpa using List.mem_takeWhile_imp hc
    have hl := List.takeWhile_append_dropWhile (p := (!isBlank ·)) (l := l)
    cases hrest : l.dropWhile (!isBlank ·) with
    | nil =>
      rw [hrest, List.append_nil] at hl
      rw [hl] at hfront
      rw [splitBy_of_none hfront, hword]
      simp [scanWords]
    | cons b rest =>
      have hb : isBlank b = true := by
        have hhead := List.head?_dropWhile_not (!isBlank ·) l
        rw [hrest] at hhead
        simpa using hhead
      rw [hrest] at hl
      have hlength : rest.length < n := by
        rw [← hn, ← hl, List.length_append, List.length_cons]
        omega
      rw [← hl, splitBy_append hfront hb, hword, scan_append_blank hb, ih _ hlength rest rfl]

theorem scanWords_text (hus : ∀ u ∈ us, u.IsProper) : scanWords (us.map text) = some us := by
  induction us with
  | nil => rfl
  | cons u us ih =>
    obtain ⟨hu, hus⟩ := List.forall_mem_cons.mp hus
    simp [scanWords, hu.scan_text, ih hus]

end Token

namespace TypeExpr
open Text Token

theorem tokens_eq_ok_iff {src : String} {us : List Token} :
    tokens src = .ok us ↔ scan src.toList = some us := by
  unfold tokens
  cases scan src.toList <;> simp [fail, pure, Except.pure]

theorem tokens_eq_error_iff {src : String} {e : Error} :
    tokens src = .error e ↔ e = .malformed (.doubleDot src) ∧ scan src.toList = none := by
  unfold tokens
  cases scan src.toList <;> simp [fail, pure, Except.pure, eq_comm]

/-- Reading the units of a text ends, after at most one pass for each character, and gives the units
of the passes. It fails exactly if a unit would begin with two dots that no third one follows; else
the texts of the units are the text without its blanks, and the same units are read of these texts
with a space between them. -/
theorem tokens_by_passes (src : String) :
    (∀ n us rest, Passes n src.toList us rest → n ≤ src.length) ∧
    (∀ us, tokens src = .ok us ↔ ∃ n, Passes n src.toList us []) ∧
    (∀ e, tokens src = .error e ↔ e = .malformed (.doubleDot src) ∧ MeetsDoubleDot src.toList) ∧
    (MeetsDoubleDot src.toList ∨ ∃ us, tokens src = .ok us ∧
      String.join (us.map Token.text) = .ofList (src.toList.filter (!isBlank ·)) ∧
      tokens (joinWith " " (us.map Token.text)) = .ok us) := by
  refine ⟨fun n us rest hrun => ?_, fun us => tokens_eq_ok_iff.trans scan_eq_some_iff,
    fun e => tokens_eq_error_iff.trans (and_congr_right' scan_eq_none_iff), ?_⟩
  · have hle := hrun.length_le
    rw [← String.length_toList]
    omega
  · cases hscan : scan src.toList with
    | none => exact .inl (scan_eq_none_iff.mp hscan)
    | some us =>
      obtain ⟨n, hrun⟩ := scan_eq_some_iff.mp hscan
      have htexts : String.join (us.map Token.text) = .ofList (src.toList.filter (!isBlank ·)) := by
        rw [← String.toList_inj, String.toList_join, String.toList_ofList, hrun.filter_eq]
        simp [List.flatMap_map]
      have hagain : scan (joinWith " " (us.map Token.text)).toList = some us := by
        rw [scan_joinWith, scanWords_text hrun.proper]
      exact .inr ⟨us, tokens_eq_ok_iff.mpr hscan, htexts, tokens_eq_ok_iff.mpr hagain⟩

example : tokens "a1-2.e .. .&&&:" = fail (.doubleDot "a1-2.e .. .&&&:") := by cbv

example : tokens "a1-2.e. ....&&&:" =
    .ok [.ident "a1", .number "-2.e.", .ellipsis, .other '.', .ampAmp, .amp, .other ':'] := by cbv

end TypeExpr
end BindingModel
