import BindingModel.Api.RejectionLog
import BindingModel.Proofs.Graph.Search
import Mathlib.Data.List.Induction
import Mathlib.Data.List.Nodup

/-! What a log holds after any number of rejections: in each category every recorded key once, in
the order in which the keys were first recorded, with what was recorded of it last. The queries and
the report say the same. -/
namespace BindingModel.Api

namespace RejectRecord
variable {key : String} {r : RejectRecord} {l : List RejectRecord}

theorem map_key_enter (r : RejectRecord) (l : List RejectRecord) :
    (r.enter l).map (·.key) =
      if r.key ∈ l.map (·.key) then l.map (·.key) else l.map (·.key) ++ [r.key] := by
  induction l with
  | nil => simp [enter]
  | cons q l ih =>
    by_cases hq : q.key = r.key
    · simp [enter, hq]
    · have hne : r.key ≠ q.key := fun h => hq h.symm
      simp only [enter, if_neg hq, List.map_cons, ih, List.mem_cons, hne, false_or]
      split <;> simp

theorem find?_enter (r : RejectRecord) (l : List RejectRecord) (key : String) :
    (r.enter l).find? (·.key == key) =
      if r.key = key then some r else l.find? (·.key == key) := by
  induction l with
  | nil => by_cases hr : r.key = key <;> simp [enter, hr]
  | cons q l ih =>
    by_cases hq : q.key = r.key
    · by_cases hr : r.key = key <;> simp [enter, hq, hr]
    · rw [enter, if_neg hq, List.find?_cons, List.find?_cons, ih]
      by_cases hk : q.key = key
      · have hr : r.key ≠ key := fun h => hq (hk.trans h.symm)
        simp [hk, hr]
      · have hbeq : (q.key == key) = false := by simpa using hk
        simp [hbeq]

theorem find?_key_of_mem (hl : (l.map (·.key)).Nodup) (hr : r ∈ l) :
    l.find? (·.key == r.key) = some r := by
  induction l with
  | nil => cases hr
  | cons q l ih =>
    have hq : q.key ∉ l.map (·.key) := (List.nodup_cons.mp hl).1
    rcases List.mem_cons.mp hr with rfl | hr
    · simp
    · have hne : q.key ≠ r.key := fun h => hq (h ▸ List.mem_map_of_mem hr)
      rw [List.find?_cons_of_neg (by simpa using hne)]
      exact ih (List.nodup_cons.mp hl).2 hr

/-- The record of a key that was made last. -/
def latest? (key : String) (rs : List RejectRecord) : Option RejectRecord :=
  rs.findRev? (·.key == key)

theorem latest?_concat (key : String) (rs : List RejectRecord) (r : RejectRecord) :
    latest? key (rs ++ [r]) = if r.key = key then some r else latest? key rs := by
  unfold latest?
  rw [List.findRev?_eq_find?_reverse, List.findRev?_eq_find?_reverse, List.reverse_concat]
  by_cases hr : r.key = key <;> simp [hr]

/-- Records entered one after another. -/
def enterAll (rs : List RejectRecord) : List RejectRecord := rs.foldl (fun l r => r.enter l) []

theorem enterAll_concat (rs : List RejectRecord) (r : RejectRecord) :
    enterAll (rs ++ [r]) = r.enter (enterAll rs) := List.foldl_concat _ _ r rs

theorem map_key_enterAll (rs : List RejectRecord) :
    (enterAll rs).map (·.key) = (rs.map (·.key)).eraseDups := by
  induction rs using List.reverseRecOn with
  | nil => rfl
  | append_singleton rs r ih =>
    have hmem : r.key ∈ (rs.map (·.key)).eraseDups ↔ r.key ∈ rs.map (·.key) := List.mem_eraseDups
    rw [enterAll_concat, map_key_enter, ih, List.map_append, List.map_singleton,
      Search.eraseDups_concat]
    simp only [hmem]

theorem find?_enterAll (rs : List RejectRecord) (key : String) :
    (enterAll rs).find? (·.key == key) = latest? key rs := by
  induction rs using List.reverseRecOn with
  | nil => rfl
  | append_singleton rs r ih => rw [enterAll_concat, find?_enter, ih, latest?_concat]

theorem nodup_enterAll (rs : List RejectRecord) : ((enterAll rs).map (·.key)).Nodup := by
  rw [map_key_enterAll]
  exact Search.nodup_eraseDups _

theorem latest?_of_mem {rs : List RejectRecord} (hr : r ∈ enterAll rs) :
    latest? r.key rs = some r := by
  rw [← find?_enterAll]
  exact find?_key_of_mem (nodup_enterAll rs) hr

end RejectRecord

namespace RejectionLog
open RejectRecord

/-- The log after records of some categories, in this order. -/
def ofCalls (calls : List (RejectCategory × RejectRecord)) : RejectionLog :=
  calls.foldl (fun l call => l.record call.1 call.2) {}

/-- What is recorded in one category, in order. -/
def recordedIn (c : RejectCategory) (calls : List (RejectCategory × RejectRecord)) :
    List RejectRecord :=
  (calls.filter (·.1 = c)).map (·.2)

theorem records_record (l : RejectionLog) (c c' : RejectCategory) (r : RejectRecord) :
    (l.record c r).records c' = if c = c' then r.enter (l.records c') else l.records c' := by
  cases c <;> cases c' <;> rfl

/-- What is recorded in one category does not touch the others. -/
theorem records_ofCalls (calls : List (RejectCategory × RejectRecord)) (c : RejectCategory) :
    (ofCalls calls).records c = enterAll (recordedIn c calls) := by
  induction calls using List.reverseRecOn with
  | nil => cases c <;> rfl
  | append_singleton calls call ih =>
    have hlast : ofCalls (calls ++ [call]) = (ofCalls calls).record call.1 call.2 :=
      List.foldl_concat _ _ call calls
    rw [hlast, records_record, ih]
    by_cases hc : call.1 = c
    · simp [recordedIn, hc, enterAll_concat]
    · simp [recordedIn, hc]

/-- The keys of a category in the order in which they were first recorded. -/
def keysIn (c : RejectCategory) (calls : List (RejectCategory × RejectRecord)) : List String :=
  ((recordedIn c calls).map (·.key)).eraseDups

section
variable (calls : List (RejectCategory × RejectRecord)) (c : RejectCategory)

theorem map_key_ofCalls : ((ofCalls calls).records c).map (·.key) = keysIn c calls := by
  rw [records_ofCalls, map_key_enterAll, keysIn]

theorem latest?_ofCalls :
    ∀ r ∈ (ofCalls calls).records c, latest? r.key (recordedIn c calls) = some r := by
  intro r hr
  rw [records_ofCalls] at hr
  exact latest?_of_mem hr

theorem find?_ofCalls (key : String) :
    (ofCalls calls).find? c key = latest? key (recordedIn c calls) := by
  rw [find?, records_ofCalls, find?_enterAll]

theorem contains_ofCalls (key : String) :
    (ofCalls calls).contains c key = true ↔ ∃ r ∈ recordedIn c calls, r.key = key := by
  rw [contains, find?_ofCalls, latest?, List.findRev?_eq_find?_reverse, List.find?_isSome]
  simp

theorem count_ofCalls (reason : RejectReason) :
    (ofCalls calls).count c reason = (keysIn c calls).countP fun key =>
      (latest? key (recordedIn c calls)).any (·.reason == reason) := by
  rw [← map_key_ofCalls, List.countP_map, count]
  apply List.countP_congr
  intro r hr
  simp [latest?_ofCalls calls c r hr]

theorem size_ofCalls :
    (ofCalls calls).size = (keysIn .classes calls).length + (keysIn .enums calls).length +
      (keysIn .functions calls).length + (keysIn .fields calls).length := by
  simp only [← map_key_ofCalls, List.length_map]
  rfl

end

/-! ### The report -/

/-- The entries of a category by their reason, as the report shows them, below its title. -/
def sections (l : RejectionLog) (c : RejectCategory) :
    List (RejectReason × String × List RejectRecord) :=
  (Spelled.members RejectReason).map fun r =>
    (r, Spelled.text r, (l.records c).filter (·.reason == r))

theorem sections_perm (l : RejectionLog) (c : RejectCategory) :
    ((l.sections c).flatMap (·.2.2)).Perm (l.records c) := by
  rw [List.perm_iff_count]
  intro r
  have hcount (s : RejectReason) : ((l.records c).filter (·.reason == s)).count r =
      if r.reason = s then (l.records c).count r else 0 := by
    by_cases hs : r.reason = s
    · rw [if_pos hs, List.count_filter (by simpa using hs)]
    · rw [if_neg hs, List.count_eq_zero]
      simp [hs]
  simp only [sections, List.flatMap_map, List.count_flatMap, Function.comp_def, hcount]
  cases r.reason <;> simp [Spelled.members, Spelled.table]

theorem count_sections_ofCalls (calls : List (RejectCategory × RejectRecord)) (c : RejectCategory) :
    ∀ r ∈ (ofCalls calls).records c,
      (((ofCalls calls).sections c).flatMap (·.2.2)).count r = 1 := by
  intro r hr
  have hnodup : ((ofCalls calls).records c).Nodup := by
    apply List.Nodup.of_map (·.key)
    rw [records_ofCalls]
    exact nodup_enterAll _
  rw [((ofCalls calls).sections_perm c).count_eq]
  exact List.count_eq_one_of_mem hnodup hr

theorem line_eq (r : RejectRecord) :
    line r = " - " ++ r.key ++ (r.detail?.elim "" fun d => " (" ++ d ++ ")") ++ "\n" := by
  unfold line
  cases r.detail? <;> rfl

theorem part_eq (records : List RejectRecord) (reason : RejectReason) :
    part records reason =
      String.ofList (List.replicate 72 '*') ++ "\n" ++ Spelled.text reason ++ "\n\n" ++
        String.join ((records.filter (·.reason == reason)).map line) ++
        String.ofList (List.replicate 72 '*') ++ "\n\n" := by
  have hend : "\n\n" = "\n" ++ "\n" := by simp
  unfold part frame
  generalize String.ofList (List.replicate 72 '*') = stars
  rw [hend]
  simp only [String.append_assoc]

theorem render_eq (l : RejectionLog) (c : RejectCategory) :
    l.render c = String.join ((l.sections c).map fun s =>
      String.ofList (List.replicate 72 '*') ++ "\n" ++ s.2.1 ++ "\n\n" ++
        String.join (s.2.2.map fun r =>
          " - " ++ r.key ++ (r.detail?.elim "" fun d => " (" ++ d ++ ")") ++ "\n") ++
        String.ofList (List.replicate 72 '*') ++ "\n\n") := by
  unfold render
  rw [sections, List.map_map]
  refine congrArg String.join (List.map_congr_left fun reason _ => ?_)
  rw [part_eq, funext line_eq]
  rfl

/-- A log after any records. In each category it lists every key recorded there once, in the order
of the first records, with the reason and the detail of the last one. Searches and counts tell the
same. The report of a category has one framed section for each reason, below its title, with a line
for each entry that was rejected for it last. -/
theorem log_of_calls (calls : List (RejectCategory × RejectRecord)) (c : RejectCategory) :
    let l := ofCalls calls
    ((l.records c).map (·.key) = keysIn c calls ∧
      ∀ r ∈ l.records c, latest? r.key (recordedIn c calls) = some r) ∧
    (∀ key, l.find? c key = latest? key (recordedIn c calls)) ∧
    (∀ key, l.contains c key = true ↔ ∃ r ∈ recordedIn c calls, r.key = key) ∧
    (∀ reason, l.count c reason = (keysIn c calls).countP fun key =>
      (latest? key (recordedIn c calls)).any (·.reason == reason)) ∧
    l.size = (keysIn .classes calls).length + (keysIn .enums calls).length +
      (keysIn .functions calls).length + (keysIn .fields calls).length ∧
    ∃ parts : List (RejectReason × String × List RejectRecord),
      (parts.map fun s => (s.1, s.2.1)) =
        [(.notInTypeSystem, "Not in type system"),
         (.generationDisabled, "Generation disabled by type system"),
         (.redefinedToNotClass, "Type redefined to not be a class"),
         (.unmatchedReturnType, "Unmatched return type"),
         (.unmatchedArgumentType, "Unmatched argument type"),
         (.apiIncompatible, "Incompatible API"), (.deprecated, "Deprecated")] ∧
      (∀ s ∈ parts, s.2.2 = (l.records c).filter (·.reason == s.1)) ∧
      (∀ r ∈ l.records c, (parts.flatMap (·.2.2)).count r = 1) ∧
      l.render c = String.join (parts.map fun s =>
        String.ofList (List.replicate 72 '*') ++ "\n" ++ s.2.1 ++ "\n\n" ++
          String.join (s.2.2.map fun r =>
            " - " ++ r.key ++ (r.detail?.elim "" fun d => " (" ++ d ++ ")") ++ "\n") ++
          String.ofList (List.replicate 72 '*') ++ "\n\n") := by
  intro l
  have hparts : ∀ s ∈ l.sections c, s.2.2 = (l.records c).filter (·.reason == s.1) := by
    intro s hs
    obtain ⟨reason, -, rfl⟩ := List.mem_map.mp hs
    rfl
  exact ⟨⟨map_key_ofCalls calls c, latest?_ofCalls calls c⟩, find?_ofCalls calls c,
    contains_ofCalls calls c, count_ofCalls calls c, size_ofCalls calls, l.sections c, rfl, hparts,
    count_sections_ofCalls calls c, l.render_eq c⟩

/-- A key recorded again keeps its place and moves to another section. -/
theorem log_of_calls_moved :
    let l := ofCalls [(.classes, ⟨"Hidden", .notInTypeSystem, none⟩),
      (.enums, ⟨"Color", .deprecated, none⟩),
      (.classes, ⟨"Other", .generationDisabled, none⟩),
      (.classes, ⟨"Hidden", .generationDisabled, some "excluded"⟩)]
    (l.records .classes).map (·.key) = ["Hidden", "Other"] ∧
    l.render .classes = String.join [
      "************************************************************************\n" ++
      "Not in type system\n\n" ++
      "************************************************************************\n\n",
      "************************************************************************\n" ++
      "Generation disabled by type system\n\n - Hidden (excluded)\n - Other\n" ++
      "************************************************************************\n\n",
      "************************************************************************\n" ++
      "Type redefined to not be a class\n\n" ++
      "************************************************************************\n\n",
      "************************************************************************\n" ++
      "Unmatched return type\n\n" ++
      "************************************************************************\n\n",
      "************************************************************************\n" ++
      "Unmatched argument type\n\n" ++
      "************************************************************************\n\n",
      "************************************************************************\n" ++
      "Incompatible API\n\n" ++
      "************************************************************************\n\n",
      "************************************************************************\n" ++
      "Deprecated\n\n" ++
      "************************************************************************\n\n"] := by
  refine ⟨(log_of_calls _ .classes).1.1, congrArg String.join ?_⟩
  decide +kernel

end RejectionLog
end BindingModel.Api
