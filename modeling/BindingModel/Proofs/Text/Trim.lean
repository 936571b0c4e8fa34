import BindingModel.Text.Cut
import Mathlib.Data.List.Basic
import Mathlib.Data.List.TakeWhile

/-! What trimming leaves of a text. -/
namespace BindingModel.Text
variable {a b s t : List Char}

/-- No blank stands at either end. -/
def Tight (s : List Char) : Prop :=
  (∀ c ∈ s.head?, isBlank c = false) ∧ ∀ c ∈ s.getLast?, isBlank c = false

def AllBlank (s : List Char) : Prop := ∀ c ∈ s, isBlank c = true

theorem AllBlank.nil : AllBlank [] := fun _ hc => absurd hc List.not_mem_nil

theorem AllBlank.append (ha : AllBlank a) (hb : AllBlank b) : AllBlank (a ++ b) :=
  fun c hc => (List.mem_append.mp hc).elim (ha c) (hb c)

namespace Tight

theorem nil : Tight [] := ⟨by simp, by simp⟩

theorem append (hs : Tight s) (hsne : s ≠ []) (ht : Tight t) (htne : t ≠ []) (m : List Char) :
    Tight (s ++ (m ++ t)) := by
  obtain ⟨c, s, rfl⟩ := List.exists_cons_of_ne_nil hsne
  refine ⟨hs.1, fun d hd => ht.2 d ?_⟩
  obtain ⟨e, he⟩ : ∃ e, t.getLast? = some e := ⟨_, List.getLast?_eq_getLast_of_ne_nil htne⟩
  rw [← List.append_assoc, List.getLast?_append, he] at hd
  rwa [he]

theorem of_forall (h : ∀ c ∈ s, isBlank c = false) : Tight s :=
  ⟨fun c hc => h c (List.mem_of_mem_head? hc), fun c hc => h c (List.mem_of_mem_getLast? hc)⟩

theorem of_all (h : s.all (!isBlank ·) = true) : Tight s :=
  .of_forall fun c hc => by simpa using List.all_eq_true.mp h c hc

end Tight

theorem dropWhile_of_head {p : Char → Bool} (h : ∀ c ∈ s.head?, p c = false) :
    s.dropWhile p = s := by
  cases s with
  | nil => rfl
  | cons c s => exact List.dropWhile_cons_of_neg (by simp [h c rfl])

/-- What is dropped at the end of a text, and what the text ends with then. -/
theorem dropEndWhile_eq_iff {p : Char → Bool} : dropEndWhile p s = t ↔
    (∃ u, s = t ++ u ∧ ∀ c ∈ u, p c = true) ∧ ∀ c ∈ t.getLast?, p c = false := by
  constructor
  · rintro rfl
    unfold dropEndWhile
    refine ⟨⟨(s.reverse.takeWhile p).reverse, ?_, ?_⟩, ?_⟩
    · rw [← List.reverse_append, List.takeWhile_append_dropWhile, List.reverse_reverse]
    · intro c hc
      exact List.mem_takeWhile_imp (List.mem_reverse.mp hc)
    · intro c hc
      rw [List.getLast?_reverse] at hc
      have hnot := List.head?_dropWhile_not p s.reverse
      rw [Option.mem_def.mp hc] at hnot
      simpa using hnot
  · rintro ⟨⟨u, rfl, hu⟩, hlast⟩
    unfold dropEndWhile
    rw [List.reverse_append,
      List.dropWhile_append_of_pos fun c hc => hu c (List.mem_reverse.mp hc),
      dropWhile_of_head (by simpa using hlast), List.reverse_reverse]

theorem trim_ofList (ha : AllBlank a) (hs : Tight s) (hb : AllBlank b) :
    trim (.ofList (a ++ (s ++ b))) = .ofList s := by
  have hend : dropEndWhile isBlank (s ++ b) = s := dropEndWhile_eq_iff.mpr ⟨⟨b, rfl, hb⟩, hs.2⟩
  unfold trim trimEnd trimStart
  rw [String.toList_ofList, String.toList_ofList, List.dropWhile_append_of_pos ha]
  cases s with
  | nil =>
    have hnone : b.dropWhile isBlank = [] := List.dropWhile_eq_nil_iff.mpr hb
    rw [List.nil_append, hnone]
    rfl
  | cons c s => rw [dropWhile_of_head (by simpa using hs.1), hend]

theorem exists_blanks_append (s : List Char) :
    ∃ a t, AllBlank a ∧ (∀ c ∈ t.head?, isBlank c = false) ∧ s = a ++ t := by
  induction s with
  | nil => exact ⟨[], [], .nil, by simp, rfl⟩
  | cons c s ih =>
    by_cases hc : isBlank c = true
    · obtain ⟨a, t, ha, ht, rfl⟩ := ih
      exact ⟨c :: a, t, List.forall_mem_cons.mpr ⟨hc, ha⟩, ht, rfl⟩
    · exact ⟨[], c :: s, .nil, by simpa using hc, rfl⟩

/-- A text is its trimmed text between blanks. -/
theorem exists_trim (s : List Char) :
    ∃ a b, AllBlank a ∧ AllBlank b ∧ Tight (trim (.ofList s)).toList ∧
      s = a ++ ((trim (.ofList s)).toList ++ b) := by
  obtain ⟨a, t, ha, ht, rfl⟩ := exists_blanks_append s
  obtain ⟨b, u, hb, hu, hback⟩ := exists_blanks_append t.reverse
  obtain rfl : t = u.reverse ++ b.reverse := by rw [← List.reverse_append, ← hback,
    List.reverse_reverse]
  have hblank : AllBlank b.reverse := fun c hc => hb c (List.mem_reverse.mp hc)
  have htight : Tight u.reverse := by
    refine ⟨fun c hc => ht c ?_, by simpa using hu⟩
    rw [List.head?_append, Option.mem_def.mp hc]
    rfl
  rw [trim_ofList ha htight hblank, String.toList_ofList]
  exact ⟨a, _, ha, hblank, htight, rfl⟩

theorem trim_append_of_allBlank (ha : AllBlank a) (s : List Char) :
    trim (.ofList (a ++ s)) = trim (.ofList s) := by
  obtain ⟨b, c, hb, hc, htight, hs⟩ := exists_trim s
  have htrim := trim_ofList (ha.append hb) htight hc
  rwa [List.append_assoc, ← hs, String.ofList_toList] at htrim

theorem trim_eq_self_iff {s : String} : trim s = s ↔ Tight s.toList := by
  obtain ⟨-, -, -, -, htight, -⟩ := exists_trim s.toList
  rw [String.ofList_toList] at htight
  constructor
  · intro h
    rwa [h] at htight
  · intro h
    have htrim := trim_ofList .nil h .nil
    simpa using htrim

end BindingModel.Text
