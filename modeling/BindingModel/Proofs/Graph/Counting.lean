import BindingModel.Proofs.Graph.GreedyOrder
import Mathlib.Data.List.Dedup
import Mathlib.Logic.Function.Basic

/-! To count for each node the edges that it waits for, and to take the least node that waits for
none, comes to the greedy order. Edges may be counted and followed in any order. -/
namespace BindingModel.Graph

/-- How many edges each node waits for, and the nodes to take that wait for none, in no particular
order. -/
structure Tally where
  waiting : Nat → Nat
  ready : List Nat

namespace Tally

/-- Count each edge at the node that it leads to. -/
def count (edges : List (Nat × Nat)) : Nat → Nat :=
  edges.foldl (fun waiting e => Function.update waiting e.2 (waiting e.2 + 1)) fun _ => 0

/-- Before a node is taken, those are ready that no edge leads to. -/
def start (size : Nat) (edges : List (Nat × Nat)) : Tally where
  waiting := count edges
  ready := (List.range size).filter fun i => count edges i = 0

/-- Now `j` waits for one edge less. After the last one it is ready. -/
def release (t : Tally) (j : Nat) : Tally where
  waiting := Function.update t.waiting j (t.waiting j - 1)
  ready := if t.waiting j - 1 = 0 then j :: t.ready else t.ready

/-- Take `i` and release what its edges lead to, one after another. -/
def take (t : Tally) (i : Nat) (successors : List Nat) : Tally :=
  successors.foldl release { t with ready := t.ready.erase i }

end Tally

/-- The least node that is ready is taken, and its edges are followed in some order, as long as a
node is ready. -/
inductive Takes (g : Graph) : Tally → List Nat → Prop
  | done {t : Tally} (h : t.ready = []) : Takes g t []
  | next {t : Tally} {i : Nat} {successors order : List Nat} (hi : t.ready.min? = some i)
      (hperm : successors.Perm (g.successors i)) (h : Takes g (t.take i successors) order) :
      Takes g t (i :: order)

/-- Counting the edges in some order and taking nodes from there leads to this order. -/
def Counted (g : Graph) (order : List Nat) : Prop :=
  ∃ edges : List (Nat × Nat), edges.Nodup ∧ (∀ e, e ∈ edges ↔ e ∈ g.edges) ∧
    Takes g (.start g.size edges) order

namespace Tally

theorem count_eq (edges : List (Nat × Nat)) (j : Nat) :
    count edges j = edges.countP (·.2 = j) := by
  induction edges using List.reverseRecOn with
  | nil => rfl
  | append_singleton edges e ih =>
    have hstep : count (edges ++ [e]) =
        Function.update (count edges) e.2 (count edges e.2 + 1) := by
      simp [count]
    rw [hstep, List.countP_append, ← ih]
    by_cases hj : j = e.2
    · subst hj
      simp
    · simp [hj, Ne.symm hj]

theorem waiting_foldl_release {l : List Nat} (hl : l.Nodup) (t : Tally) (j : Nat) :
    (l.foldl release t).waiting j = if j ∈ l then t.waiting j - 1 else t.waiting j := by
  induction l generalizing t with
  | nil => simp
  | cons k l ih =>
    obtain ⟨hk, hl⟩ := List.nodup_cons.mp hl
    rw [List.foldl_cons, ih hl]
    by_cases hjk : j = k
    · subst hjk
      simp [hk, release]
    · simp [hjk, release]

theorem mem_ready_foldl_release {l : List Nat} (hl : l.Nodup) (t : Tally) (j : Nat) :
    j ∈ (l.foldl release t).ready ↔ j ∈ t.ready ∨ j ∈ l ∧ t.waiting j - 1 = 0 := by
  induction l generalizing t with
  | nil => simp
  | cons k l ih =>
    obtain ⟨hk, hl⟩ := List.nodup_cons.mp hl
    rw [List.foldl_cons, ih hl]
    by_cases hjk : j = k
    · subst hjk
      by_cases hzero : t.waiting j - 1 = 0 <;> simp [hk, release, hzero]
    · by_cases hzero : t.waiting k - 1 = 0 <;> simp [hjk, release, hzero]

theorem nodup_ready_foldl_release {l : List Nat} (hl : l.Nodup) (t : Tally) (ht : t.ready.Nodup)
    (hout : ∀ j ∈ l, j ∉ t.ready) : (l.foldl release t).ready.Nodup := by
  induction l generalizing t with
  | nil => exact ht
  | cons k l ih =>
    obtain ⟨hk, hl⟩ := List.nodup_cons.mp hl
    rw [List.foldl_cons]
    have hkt : k ∉ t.ready := hout k List.mem_cons_self
    apply ih hl
    · unfold release
      split
      · exact List.nodup_cons.mpr ⟨hkt, ht⟩
      · exact ht
    · intro j hj
      have hjk : j ≠ k := fun h => hk (h ▸ hj)
      have hjt : j ∉ t.ready := hout j (List.mem_cons_of_mem k hj)
      unfold release
      split
      · simp [hjk, hjt]
      · exact hjt

end Tally

/-- The number of nodes, of those left, from which an edge leads to `j`. -/
def waitsFor (g : Graph) (nodes : List Nat) (j : Nat) : Nat :=
  nodes.countP fun a => g.edges.contains (a, j)

/-- The counts are right for the nodes that are left, and what was taken waits for none of them. -/
structure Tallies (g : Graph) (nodes : List Nat) (t : Tally) : Prop where
  sorted : nodes.Pairwise (· < ·)
  waiting : ∀ j, t.waiting j = g.waitsFor nodes j
  taken : ∀ j < g.size, j ∉ nodes → g.waitsFor nodes j = 0
  nodup : t.ready.Nodup
  mem_ready : ∀ j, j ∈ t.ready ↔ j ∈ nodes ∧ g.waitsFor nodes j = 0

variable {g : Graph} {nodes : List Nat} {t : Tally}

theorem waitsFor_erase {i : Nat} (hi : i ∈ nodes) (j : Nat) : g.waitsFor nodes j =
    g.waitsFor (nodes.erase i) j + if (i, j) ∈ g.edges then 1 else 0 := by
  unfold waitsFor
  rw [(List.perm_cons_erase hi).countP_eq, List.countP_cons]
  simp

theorem waitsFor_pos {i j : Nat} (hi : i ∈ nodes) (hij : (i, j) ∈ g.edges) :
    0 < g.waitsFor nodes j := by
  rw [waitsFor_erase hi, if_pos hij]
  exact Nat.succ_pos _

/-- Edges that are counted one by one are as many as the nodes from which they come. -/
theorem count_eq_waitsFor (hg : g.WellFormed) {edges : List (Nat × Nat)} (hd : edges.Nodup)
    (hmem : ∀ e, e ∈ edges ↔ e ∈ g.edges) (j : Nat) :
    Tally.count edges j = g.waitsFor (List.range g.size) j := by
  have hinj : ((edges.filter (·.2 = j)).map Prod.fst).Nodup := by
    refine (hd.filter _).map_on fun e he d hd' hed => ?_
    simp only [List.mem_filter, decide_eq_true_eq] at he hd'
    exact Prod.ext hed (he.2.trans hd'.2.symm)
  have hperm : ((edges.filter (·.2 = j)).map Prod.fst).Perm
      ((List.range g.size).filter fun a => g.edges.contains (a, j)) := by
    refine (List.perm_ext_iff_of_nodup hinj (List.nodup_range.filter _)).mpr fun a => ?_
    simp only [List.mem_map, List.mem_filter, decide_eq_true_eq, List.mem_range, hmem,
      List.contains_iff_mem]
    constructor
    · rintro ⟨⟨a, b⟩, ⟨hab, rfl⟩, rfl⟩
      exact ⟨(hg _ hab).1, hab⟩
    · intro h
      exact ⟨(a, j), ⟨h.2, rfl⟩, rfl⟩
  have hlen := hperm.length_eq
  rw [List.length_map] at hlen
  rw [Tally.count_eq, waitsFor, List.countP_eq_length_filter, List.countP_eq_length_filter, hlen]

/-! ### One node is taken -/

theorem Tallies.start (hg : g.WellFormed) {edges : List (Nat × Nat)} (hd : edges.Nodup)
    (hmem : ∀ e, e ∈ edges ↔ e ∈ g.edges) :
    Tallies g (List.range g.size) (.start g.size edges) := by
  have hcount := count_eq_waitsFor hg hd hmem
  refine ⟨List.pairwise_lt_range, hcount, fun j hj hout => ?_, List.nodup_range.filter _, ?_⟩
  · exact absurd (List.mem_range.mpr hj) hout
  · intro j
    simp only [Tally.start, List.mem_filter, decide_eq_true_eq, hcount]

/-- What an edge leads to from a node that is left was not taken. -/
theorem Tallies.mem_of_edge (hg : g.WellFormed) (h : g.Tallies nodes t) {i j : Nat}
    (hi : i ∈ nodes) (hij : (i, j) ∈ g.edges) : j ∈ nodes := by
  by_contra hout
  have hpos := waitsFor_pos hi hij
  have hzero := h.taken j (hg _ hij).2 hout
  omega

/-- The invariant of the loop: taking a node keeps the counts right. -/
theorem Tallies.take (hg : g.WellFormed) (h : g.Tallies nodes t) {i : Nat}
    (hi : t.ready.min? = some i) {successors : List Nat}
    (hperm : successors.Perm (g.successors i)) :
    g.Tallies (nodes.erase i) (t.take i successors) := by
  obtain ⟨hnode, hfree⟩ := (h.mem_ready i).mp (List.min?_mem hi)
  have hnodes : nodes.Nodup := h.sorted.imp fun hab => Nat.ne_of_lt hab
  have hd : successors.Nodup := hperm.nodup_iff.mpr (nodup_successors g i)
  have hedge : ∀ j, j ∈ successors ↔ (i, j) ∈ g.edges := fun j =>
    hperm.mem_iff.trans (mem_successors hg)
  have hcount := fun j => waitsFor_erase (g := g) hnode j
  have hnotready : ∀ j, j ∈ successors → j ∉ t.ready.erase i := by
    intro j hj hready
    have hzero := ((h.mem_ready j).mp (List.mem_of_mem_erase hready)).2
    have hpos := waitsFor_pos hnode ((hedge j).mp hj)
    omega
  constructor
  case sorted => exact h.sorted.sublist List.erase_sublist
  case waiting =>
    intro j
    have hj := hcount j
    simp only [Tally.take, Tally.waiting_foldl_release hd, h.waiting, hedge]
    split
    · next hij =>
      rw [if_pos hij] at hj
      omega
    · next hij =>
      rw [if_neg hij] at hj
      omega
  case taken =>
    intro j hj hout
    have hzero : g.waitsFor nodes j = 0 := by
      by_cases hji : j = i
      · rw [hji]
        exact hfree
      · exact h.taken j hj fun hmem => hout ((List.mem_erase_of_ne hji).mpr hmem)
    have hle := hcount j
    omega
  case nodup => exact Tally.nodup_ready_foldl_release hd _ (h.nodup.erase i) hnotready
  case mem_ready =>
    intro j
    have hj := hcount j
    rw [Tally.take, Tally.mem_ready_foldl_release hd]
    by_cases hij : j ∈ successors
    · -- It gets ready now or later, but it was not ready before.
      have hji : j ≠ i := by
        rintro rfl
        have hpos := waitsFor_pos hnode ((hedge j).mp hij)
        omega
      have hleft : j ∈ nodes.erase i :=
        (List.mem_erase_of_ne hji).mpr (h.mem_of_edge hg hnode ((hedge j).mp hij))
      rw [if_pos ((hedge j).mp hij)] at hj
      have hwaiting := h.waiting j
      simp only [hnotready j hij, hij, hleft, false_or, true_and]
      omega
    · rw [if_neg fun hedge' => hij ((hedge j).mpr hedge'), Nat.add_zero] at hj
      rw [← hj, h.nodup.mem_erase_iff, hnodes.mem_erase_iff, h.mem_ready]
      simp [hij, and_assoc]

/-! ### All nodes that can be taken -/

theorem find?_free (hs : nodes.Pairwise (· < ·)) {free : Nat → Bool} {i : Nat} :
    nodes.find? free = some i ↔ (i ∈ nodes ∧ free i) ∧ ∀ j ∈ nodes, free j → i ≤ j := by
  rw [List.find?_eq_some_iff_append]
  constructor
  · rintro ⟨hi, before, after, rfl, hbefore⟩
    refine ⟨⟨by simp, hi⟩, fun j hj hfree => ?_⟩
    rw [List.pairwise_append, List.pairwise_cons] at hs
    rcases List.mem_append.mp hj with hj | hj
    · exact absurd hfree (by simpa using hbefore j hj)
    · rcases List.mem_cons.mp hj with rfl | hj
      · exact Nat.le_refl j
      · exact Nat.le_of_lt (hs.2.1.1 j hj)
  · rintro ⟨⟨hi, hfree⟩, hleast⟩
    obtain ⟨before, after, rfl⟩ := List.append_of_mem hi
    refine ⟨hfree, before, after, rfl, fun j hj => ?_⟩
    rw [List.pairwise_append] at hs
    have hlt := hs.2.2 j hj i List.mem_cons_self
    by_contra hj'
    have hle := hleast j (List.mem_append_left _ hj) (by simpa using hj')
    omega

/-- The edges from nodes that are left. -/
def edgesFrom (g : Graph) (nodes : List Nat) : List (Nat × Nat) :=
  g.edges.filter fun e => e.1 ∈ nodes

theorem all_edgesFrom {i : Nat} :
    ((g.edgesFrom nodes).all (·.2 ≠ i)) = true ↔ g.waitsFor nodes i = 0 := by
  simp only [edgesFrom, waitsFor, List.all_eq_true, List.mem_filter, decide_eq_true_eq,
    List.countP_eq_zero, List.contains_iff_mem]
  constructor
  · intro h a ha hai
    exact h (a, i) ⟨hai, ha⟩ rfl
  · rintro h ⟨a, b⟩ ⟨hab, ha⟩ rfl
    exact h a ha hab

theorem edgesFrom_erase (hnodes : nodes.Nodup) (i : Nat) :
    g.edgesFrom (nodes.erase i) = (g.edgesFrom nodes).filter (·.1 ≠ i) := by
  unfold edgesFrom
  rw [List.filter_filter]
  refine List.filter_congr fun e _ => ?_
  simp [hnodes.mem_erase_iff]

/-- What is ready is what is free, so the least that is ready is the first that is free. -/
theorem Tallies.find? (h : g.Tallies nodes t) :
    (nodes.find? fun i => (g.edgesFrom nodes).all (·.2 ≠ i)) = t.ready.min? := by
  cases hi : t.ready.min? with
  | none =>
    rw [List.min?_eq_none_iff] at hi
    refine List.find?_eq_none.mpr fun j hj hfree => ?_
    have hready := (h.mem_ready j).mpr ⟨hj, all_edgesFrom.mp hfree⟩
    rw [hi] at hready
    cases hready
  | some i =>
    rw [List.min?_eq_some_iff] at hi
    obtain ⟨hi, hleast⟩ := hi
    obtain ⟨hnode, hfree⟩ := (h.mem_ready i).mp hi
    refine (find?_free h.sorted).mpr ⟨⟨hnode, all_edgesFrom.mpr hfree⟩, fun j hj hfree => ?_⟩
    exact hleast j ((h.mem_ready j).mpr ⟨hj, all_edgesFrom.mp hfree⟩)

theorem Takes.eq_orderFrom (hg : g.WellFormed) {order : List Nat} (h : g.Takes t order)
    (ht : g.Tallies nodes t) {n : Nat} (hn : nodes.length ≤ n) :
    order = orderFrom n nodes (g.edgesFrom nodes) := by
  induction h generalizing nodes n with
  | @done t hnone =>
    cases n with
    | zero => rfl
    | succ n => rw [orderFrom, ht.find?, hnone, List.min?_nil]
  | @next t i successors order hi hperm _ ih =>
    have hnode := ((ht.mem_ready i).mp (List.min?_mem hi)).1
    have hlen := List.length_erase_of_mem hnode
    have hpos := List.length_pos_of_mem hnode
    cases n with
    | zero => omega
    | succ n =>
      rw [orderFrom, ht.find?, hi]
      have hnodes : nodes.Nodup := ht.sorted.imp fun hab => Nat.ne_of_lt hab
      have hrest := ih (ht.take hg hi hperm) (n := n) (by omega)
      rw [hrest, edgesFrom_erase hnodes]

theorem Tallies.exists_takes (hg : g.WellFormed) (n : Nat) (ht : g.Tallies nodes t)
    (hn : nodes.length ≤ n) : ∃ order, g.Takes t order := by
  induction n generalizing nodes t with
  | zero =>
    obtain rfl : nodes = [] := List.eq_nil_of_length_eq_zero (by omega)
    refine ⟨[], .done (List.eq_nil_iff_forall_not_mem.mpr fun j hj => ?_)⟩
    exact absurd ((ht.mem_ready j).mp hj).1 List.not_mem_nil
  | succ n ih =>
    cases hi : t.ready.min? with
    | none => exact ⟨[], .done (List.min?_eq_none_iff.mp hi)⟩
    | some i =>
      have hnode := ((ht.mem_ready i).mp (List.min?_mem hi)).1
      have hlen := List.length_erase_of_mem hnode
      obtain ⟨order, horder⟩ := ih (ht.take hg hi (.refl _)) (by omega)
      exact ⟨i :: order, .next hi (.refl _) horder⟩

/-- Whatever the order in which edges are counted and followed, counting ends, and with the greedy
order. -/
theorem counted_iff (hg : g.WellFormed) {order : List Nat} :
    g.Counted order ↔ order = g.greedyOrder := by
  have hall : g.edgesFrom (List.range g.size) = g.edges :=
    List.filter_eq_self.mpr fun e he => by simpa using (hg e he).1
  have hgreedy : ∀ {edges : List (Nat × Nat)} {order : List Nat}, edges.Nodup →
      (∀ e, e ∈ edges ↔ e ∈ g.edges) → g.Takes (.start g.size edges) order →
      order = g.greedyOrder := by
    intro edges order hd hmem h
    have horder := h.eq_orderFrom hg (.start hg hd hmem) (Nat.le_of_eq List.length_range)
    rwa [hall] at horder
  constructor
  · rintro ⟨edges, hd, hmem, h⟩
    exact hgreedy hd hmem h
  · rintro rfl
    have hd : g.edges.dedup.Nodup := List.nodup_dedup _
    have hmem : ∀ e, e ∈ g.edges.dedup ↔ e ∈ g.edges := fun e => List.mem_dedup
    obtain ⟨order, h⟩ := Tallies.exists_takes hg g.size (.start hg hd hmem)
      (Nat.le_of_eq List.length_range)
    exact ⟨g.edges.dedup, hd, hmem, hgreedy hd hmem h ▸ h⟩

end BindingModel.Graph
