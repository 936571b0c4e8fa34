import BindingModel.Catalog
import Mathlib.Data.List.Basic
import Mathlib.Data.List.Pairwise

/-! A catalog keeps an ordered list: values are added at its end and taken out anywhere, and what is
found through the index by name is what the list has under that name. -/
namespace BindingModel.Catalog
variable {α : Type} {c : Catalog α} {nameOf : α → String} {as : List α} {a : α}
variable {n : UInt32} {name : String} {p : α → Bool}

theorem lookup_cons {κ β : Type} [DecidableEq κ] (k : κ) (i : κ × β) (l : List (κ × β)) :
    (i :: l).lookup k = if k = i.1 then some i.2 else l.lookup k := by
  obtain ⟨m, b⟩ := i
  rw [List.lookup_cons]
  by_cases hk : k = m
  · simp [hk]
  · have hbeq : (k == m) = false := by simpa using hk
    rw [hbeq, if_neg hk]

/-! ### Numbers -/

theorem put_of_below {items : List (UInt32 × α)} (h : ∀ i ∈ items, i.1 < n) :
    put n a items = items ++ [(n, a)] := by
  induction items with
  | nil => rfl
  | cons i items ih =>
    obtain ⟨hi, hitems⟩ := List.forall_mem_cons.mp h
    have hnlt : ¬ n < i.1 := UInt32.not_lt.mpr (UInt32.le_of_lt hi)
    have hne : n ≠ i.1 := fun heq => UInt32.lt_irrefl n (heq ▸ hi)
    rw [put, if_neg hnlt, if_neg hne, ih hitems, List.cons_append]

theorem lookup_of_mem {items : List (UInt32 × α)} (h : items.Pairwise (·.1 < ·.1))
    (hmem : (n, a) ∈ items) : items.lookup n = some a := by
  induction items with
  | nil => cases hmem
  | cons i items ih =>
    obtain ⟨hi, hitems⟩ := List.pairwise_cons.mp h
    rw [lookup_cons]
    rcases List.mem_cons.mp hmem with rfl | hmem
    · rw [if_pos rfl]
    · have hne : n ≠ i.1 := fun heq => UInt32.lt_irrefl n (heq ▸ hi (n, a) hmem)
      rw [if_neg hne, ih hitems hmem]

/-- Under ascending numbers a number stands in one place only. -/
theorem filter_ne_of_ascending {front rest : List (UInt32 × α)}
    (h : (front ++ (n, a) :: rest).Pairwise (·.1 < ·.1)) :
    (front ++ (n, a) :: rest).filter (·.1 ≠ n) = front ++ rest := by
  obtain ⟨-, hpair, hbefore⟩ := List.pairwise_append.mp h
  have hfront : ∀ i ∈ front, i.1 ≠ n := by
    intro i hi heq
    exact UInt32.lt_irrefl n (heq ▸ hbefore i hi (n, a) List.mem_cons_self)
  have hrest : ∀ i ∈ rest, i.1 ≠ n := by
    intro i hi heq
    exact UInt32.lt_irrefl n (heq ▸ (List.pairwise_cons.mp hpair).1 i hi)
  rw [List.filter_append, List.filter_cons_of_neg (by simp),
    List.filter_eq_self.mpr (by simpa using hfront),
    List.filter_eq_self.mpr (by simpa using hrest)]

/-! ### The index -/

theorem lookup_enter (index : List (String × List UInt32)) (s : String) :
    ((enter name n index).lookup s).getD [] =
      if s = name then (index.lookup s).getD [] ++ [n] else (index.lookup s).getD [] := by
  induction index with
  | nil => by_cases hs : s = name <;> simp [enter, lookup_cons, hs]
  | cons i index ih =>
    by_cases hi : i.1 = name
    · by_cases hs : s = name <;> simp [enter, lookup_cons, hi, hs]
    · by_cases hs : s = i.1
      · simp [enter, lookup_cons, hi, hs]
      · simp [enter, lookup_cons, hi, hs, ih]

theorem lookup_strike (index : List (String × List UInt32)) (s : String) :
    ((strike name n index).lookup s).getD [] =
      if s = name then ((index.lookup s).getD []).filter (· ≠ n)
      else (index.lookup s).getD [] := by
  induction index with
  | nil => simp [strike]
  | cons i index ih =>
    by_cases hi : i.1 = name
    · by_cases hs : s = name <;> simp [strike, lookup_cons, hi, hs]
    · by_cases hs : s = i.1
      · simp [strike, lookup_cons, hi, hs]
      · simp [strike, lookup_cons, hi, hs, ih]

theorem mem_map_enter {index : List (String × List UInt32)} {s : String} :
    s ∈ (enter name n index).map (·.1) ↔ s = name ∨ s ∈ index.map (·.1) := by
  induction index with
  | nil => simp [enter]
  | cons i index ih =>
    by_cases hi : i.1 = name
    · simp [enter, hi]
    · simp only [enter, if_neg hi, List.map_cons, List.mem_cons, ih, or_left_comm]

theorem nodup_map_enter {index : List (String × List UInt32)} (h : (index.map (·.1)).Nodup) :
    ((enter name n index).map (·.1)).Nodup := by
  induction index with
  | nil => simp [enter]
  | cons i index ih =>
    obtain ⟨hfresh, hindex⟩ := List.nodup_cons.mp h
    by_cases hi : i.1 = name
    · simpa [enter, hi] using h
    · rw [enter, if_neg hi]
      apply List.nodup_cons.mpr
      refine ⟨?_, ih hindex⟩
      rw [mem_map_enter]
      rintro (heq | hmem)
      · exact hi heq
      · exact hfresh hmem

/-! ### Catalogs and lists -/

theorem toNat_next_add (c : Catalog α) (name : String) (a : α)
    (hnext : c.next.toNat + 1 < UInt32.size) :
    (c.add name a).next.toNat = c.next.toNat + 1 := by
  have hadd : (c.add name a).next.toNat = (c.next.toNat + 1) % UInt32.size := UInt32.toNat_add ..
  rw [hadd, Nat.mod_eq_of_lt hnext]

theorem next_remove (c : Catalog α) (name : String) (p : α → Bool) :
    (c.remove name p).2.next = c.next := by
  unfold Catalog.remove
  split <;> rfl

/-- The catalog keeps the list: its values are those of the list, under ascending numbers that were
given before the next one, and the index has exactly the numbers of the values under each name. -/
structure Lists (c : Catalog α) (nameOf : α → String) (as : List α) : Prop where
  values : c.values = as
  ascending : c.items.Pairwise (·.1 < ·.1)
  below : ∀ i ∈ c.items, i.1 < c.next
  numbers : ∀ name, c.numbers name = (c.items.filter (nameOf ·.2 == name)).map (·.1)

namespace Lists

theorem empty (next : UInt32) (nameOf : α → String) : Lists { next := next } nameOf [] where
  values := rfl
  ascending := .nil
  below := by simp
  numbers := by simp [Catalog.numbers]

/-- A value that is added comes last, as long as there is a number behind the next one. -/
theorem add (h : c.Lists nameOf as) (hnext : c.next.toNat + 1 < UInt32.size) (a : α) :
    (c.add (nameOf a) a).Lists nameOf (as ++ [a]) := by
  have hitems : (c.add (nameOf a) a).items = c.items ++ [(c.next, a)] := put_of_below h.below
  have hlt : c.next < (c.add (nameOf a) a).next := by
    rw [UInt32.lt_iff_toNat_lt, c.toNat_next_add _ a hnext]
    omega
  constructor
  · simp [Catalog.values, hitems, ← h.values]
  · rw [hitems]
    apply List.pairwise_append.mpr
    refine ⟨h.ascending, List.pairwise_singleton _ _, ?_⟩
    simpa using fun m b hmem => h.below (m, b) hmem
  · intro i hi
    rw [hitems] at hi
    rcases List.mem_append.mp hi with hi | hi
    · exact UInt32.lt_trans (h.below i hi) hlt
    · obtain rfl := List.mem_singleton.mp hi
      exact hlt
  · intro name
    have hold := h.numbers name
    have hnew : (c.add (nameOf a) a).numbers name =
        if name = nameOf a then c.numbers name ++ [c.next] else c.numbers name :=
      lookup_enter c.index name
    rw [hnew, hitems, List.filter_append, List.map_append, ← hold]
    by_cases hname : name = nameOf a
    · simp [hname]
    · have hne : nameOf a ≠ name := fun heq => hname heq.symm
      simp [hname, hne]

theorem get?_of_mem (h : c.Lists nameOf as) (hmem : (n, a) ∈ c.items) : c.get? n = some a :=
  lookup_of_mem h.ascending hmem

/-- What stands under the numbers of a name. -/
theorem numbers_get? (h : c.Lists nameOf as) (name : String) :
    (c.numbers name).map c.get? = (as.filter (nameOf · == name)).map some := by
  have hvalues : as.filter (nameOf · == name) =
      (c.items.filter (nameOf ·.2 == name)).map (·.2) := by
    rw [← h.values, Catalog.values, List.filter_map]
    rfl
  rw [h.numbers, hvalues, List.map_map, List.map_map]
  apply List.map_congr_left
  intro i hi
  exact h.get?_of_mem (List.mem_filter.mp hi).1

theorem named (h : c.Lists nameOf as) (name : String) :
    c.named name = as.filter (nameOf · == name) := by
  have hmap : c.named name = ((c.numbers name).map c.get?).filterMap id := by
    rw [List.filterMap_map]
    rfl
  rw [hmap, h.numbers_get?, List.filterMap_map]
  simp

theorem find? (h : c.Lists nameOf as) (name : String) (p : α → Bool) :
    c.find? name p = as.find? fun a => nameOf a == name && p a := by
  have hmap : c.find? name p =
      ((c.numbers name).map c.get?).findSome? fun a? => a?.filter p := by
    rw [List.findSome?_map]
    rfl
  have hguard : (fun a => (some a).filter p) = Option.guard p := by
    funext a
    by_cases ha : p a <;> simp [Option.filter, Option.guard, ha]
  rw [hmap, h.numbers_get?, List.findSome?_map]
  unfold Function.comp
  rw [hguard, List.findSome?_guard, List.find?_filter]
  simp only [Bool.decide_and, Bool.decide_eq_true]

theorem holds (h : c.Lists nameOf as) (name : String) (p : α → Bool) :
    c.holds name p = as.any fun a => nameOf a == name && p a := by
  have hmap : c.holds name p = ((c.numbers name).map c.get?).any fun a? => a?.any p := by
    rw [List.any_map]
    rfl
  rw [hmap, h.numbers_get?, List.any_map, List.any_filter]
  rfl

/-- When a value is taken out, its number is taken from those of its name. -/
theorem numbers_strike (h : c.Lists nameOf as) (hmem : (n, a) ∈ c.items) (s : String) :
    ((strike (nameOf a) n c.index).lookup s).getD [] =
      ((c.items.filter (·.1 ≠ n)).filter (nameOf ·.2 == s)).map (·.1) := by
  have hcomm : (c.items.filter (·.1 ≠ n)).filter (nameOf ·.2 == s) =
      (c.items.filter (nameOf ·.2 == s)).filter (·.1 ≠ n) := by
    rw [List.filter_filter, List.filter_filter]
    simp only [Bool.and_comm]
  have hnumbers : (c.index.lookup s).getD [] = (c.items.filter (nameOf ·.2 == s)).map (·.1) :=
    h.numbers s
  rw [lookup_strike, hnumbers, hcomm]
  by_cases hs : s = nameOf a
  · rw [if_pos hs, List.filter_map]
    rfl
  · have hother : ∀ i ∈ c.items.filter (nameOf ·.2 == s), decide (i.1 ≠ n) = true := by
      rintro ⟨m, b⟩ hi
      obtain ⟨hi, hsi⟩ := List.mem_filter.mp hi
      apply decide_eq_true
      rintro rfl
      have hsame : b = a := Option.some.inj ((h.get?_of_mem hi).symm.trans (h.get?_of_mem hmem))
      exact hs ((eq_of_beq hsi).symm.trans (congrArg nameOf hsame))
    rw [if_neg hs, List.filter_eq_self.mpr hother]

/-- The first value of a kind is taken out, if the name is its name. -/
theorem remove (h : c.Lists nameOf as) (hname : ∀ a ∈ as, p a = true → nameOf a = name) :
    (c.remove name p).1 = as.any p ∧ (c.remove name p).2.Lists nameOf (as.eraseP p) := by
  have hvalues : c.items.map (·.2) = as := h.values
  unfold Catalog.remove
  cases hfind : c.items.find? (p ·.2) with
  | none =>
    have hnone : ∀ a ∈ as, ¬ p a = true := by
      rw [← hvalues, List.forall_mem_map]
      simpa using List.find?_eq_none.mp hfind
    have hany : as.any p = false := by simpa using hnone
    rw [List.eraseP_of_forall_not hnone, hany]
    exact ⟨rfl, h⟩
  | some found =>
    obtain ⟨n, b⟩ := found
    obtain ⟨hb, front, rest, hitems, hfront⟩ := List.find?_eq_some_iff_append.mp hfind
    have hmem : (n, b) ∈ c.items := by simp [hitems]
    have hbs : b ∈ as := by
      rw [← hvalues]
      exact List.mem_map_of_mem hmem
    have hkept : c.items.filter (·.1 ≠ n) = front ++ rest := by
      have hascending := h.ascending
      rw [hitems] at hascending ⊢
      exact filter_ne_of_ascending hascending
    refine ⟨(List.any_eq_true.mpr ⟨b, hbs, hb⟩).symm, ?_, h.ascending.filter _, ?_, ?_⟩
    · have hskip : ∀ a ∈ front.map (·.2), ¬ p a = true := by
        rw [List.forall_mem_map]
        intro i hi
        simpa using hfront i hi
      simp only [Catalog.values, hkept]
      rw [← hvalues, hitems, List.map_append, List.map_append, List.map_cons,
        List.eraseP_append_right _ hskip, List.eraseP_cons_of_pos hb]
    · intro i hi
      exact h.below i (List.mem_filter.mp hi).1
    · intro s
      rw [← hname b hbs hb]
      exact h.numbers_strike hmem s

end Lists

/-! ### Names -/

/-- The names are those of the list's values, each once. -/
structure NamesOf (c : Catalog α) (nameOf : α → String) (as : List α) : Prop where
  nodup : c.names.Nodup
  mem_iff : ∀ name, name ∈ c.names ↔ ∃ a ∈ as, nameOf a = name

namespace NamesOf

theorem empty (next : UInt32) (nameOf : α → String) : NamesOf { next := next } nameOf [] where
  nodup := .nil
  mem_iff := by simp [Catalog.names]

theorem add (h : c.NamesOf nameOf as) (a : α) :
    (c.add (nameOf a) a).NamesOf nameOf (as ++ [a]) where
  nodup := nodup_map_enter h.nodup
  mem_iff name := by
    have hmem : name ∈ (c.add (nameOf a) a).names ↔ name = nameOf a ∨ name ∈ c.names :=
      mem_map_enter
    rw [hmem, h.mem_iff]
    simp [or_comm, or_and_right, exists_or, eq_comm]

end NamesOf
end BindingModel.Catalog
