import BindingModel.Graph.Order
import Mathlib.Data.Fintype.Card
import Mathlib.Data.List.Basic
import Mathlib.Data.List.Nodup
import Mathlib.Data.Set.Finite.Basic
import Mathlib.Logic.Relation

/-! The greedy order honours every edge, and it leaves no node out exactly when no edges form a
cycle. -/
namespace BindingModel

/-- Something is reached from itself. -/
def Cyclic {α : Type} (r : α → α → Prop) : Prop := ∃ a, Relation.TransGen r a a

theorem Cyclic.mono {α : Type} {r p : α → α → Prop} (hc : Cyclic r) (h : ∀ a b, r a b → p a b) :
    Cyclic p := by
  obtain ⟨a, ha⟩ := hc
  exact ⟨a, Relation.TransGen.mono h _ _ ha⟩

/-- `a` stands somewhere before `b`. -/
def Precedes {α : Type} (l : List α) (a b : α) : Prop := [a, b].Sublist l

namespace Precedes
variable {α β : Type} {l : List α} {a b c : α}

theorem mem_left (h : Precedes l a b) : a ∈ l := h.subset (by simp)

theorem mem_right (h : Precedes l a b) : b ∈ l := h.subset (by simp)

theorem head (h : b ∈ l) : Precedes (a :: l) a b := (List.singleton_sublist.mpr h).cons_cons a

theorem cons (h : Precedes l a b) : Precedes (c :: l) a b := List.Sublist.cons c h

theorem map (h : Precedes l a b) (f : α → β) : Precedes (l.map f) (f a) (f b) :=
  List.Sublist.map f h

theorem filter (h : Precedes l a b) {p : α → Bool} (ha : p a) (hb : p b) :
    Precedes (l.filter p) a b := by
  have hs := List.Sublist.filter p h
  rw [List.filter_cons_of_pos ha, List.filter_cons_of_pos hb] at hs
  exact hs

/-- Where nothing is repeated, one place is before the other. -/
theorem idxOf_lt [DecidableEq α] (hl : l.Nodup) (h : Precedes l a b) : l.idxOf a < l.idxOf b := by
  induction l with
  | nil => cases h
  | cons x l ih =>
    obtain ⟨hx, hl⟩ := List.nodup_cons.mp hl
    cases h with
    | cons _ h =>
      have ha : x ≠ a := fun he => hx (he ▸ mem_left h)
      have hb : x ≠ b := fun he => hx (he ▸ mem_right h)
      rw [List.idxOf_cons_ne l ha, List.idxOf_cons_ne l hb]
      exact Nat.succ_lt_succ (ih hl h)
    | cons_cons _ h =>
      have hb : a ≠ b := fun he => hx (he ▸ List.singleton_sublist.mp h)
      rw [List.idxOf_cons_self, List.idxOf_cons_ne l hb]
      exact Nat.succ_pos _

theorem of_idxOf_lt [DecidableEq α] (hb : b ∈ l) (h : l.idxOf a < l.idxOf b) :
    Precedes l a b := by
  induction l with
  | nil => cases hb
  | cons x l ih =>
    have hxb : x ≠ b := by
      rintro rfl
      simp at h
    have hb' : b ∈ l := (List.mem_cons.mp hb).resolve_left (Ne.symm hxb)
    by_cases hxa : x = a
    · subst hxa
      exact head hb'
    · rw [List.idxOf_cons_ne l hxa, List.idxOf_cons_ne l hxb] at h
      exact cons (ih hb' (Nat.lt_of_succ_lt_succ h))

theorem trans [DecidableEq α] (hl : l.Nodup) (hab : Precedes l a b) (hbc : Precedes l b c) :
    Precedes l a c :=
  of_idxOf_lt (mem_right hbc) ((idxOf_lt hl hab).trans (idxOf_lt hl hbc))

/-- What precedes step by step precedes. -/
theorem of_transGen [DecidableEq α] (hl : l.Nodup) {r : α → α → Prop}
    (hr : ∀ x y, r x y → Precedes l x y) (h : Relation.TransGen r a b) : Precedes l a b := by
  induction h with
  | single h => exact hr _ _ h
  | tail _ h ih => exact trans hl ih (hr _ _ h)

theorem not_cyclic [DecidableEq α] (hl : l.Nodup) {r : α → α → Prop}
    (hr : ∀ x y, r x y → Precedes l x y) : ¬ Cyclic r := by
  intro h
  obtain ⟨a, ha⟩ := h
  exact absurd (idxOf_lt hl (of_transGen hl hr ha)) (lt_irrefl _)

end Precedes

/-- Going back along edges inside a finite set never ends without a cycle. -/
theorem cyclic_of_forall_exists {α : Type} {r : α → α → Prop} {l : List α} (hl : l ≠ [])
    (h : ∀ b ∈ l, ∃ a ∈ l, r a b) : Cyclic r := by
  by_contra hr
  let path (a b : {x // x ∈ l}) : Prop := Relation.TransGen r a b
  have : IsTrans _ path := ⟨fun _ _ _ => Relation.TransGen.trans⟩
  have : Std.Irrefl path := ⟨fun a ha => hr ⟨a, ha⟩⟩
  have : Finite {x // x ∈ l} := l.finite_toSet.to_subtype
  have hwf := Finite.wellFounded_of_trans_of_irrefl path
  have hno : ∀ b : {x // x ∈ l}, False := fun b => by
    induction b using hwf.induction with
    | _ b ih =>
      obtain ⟨a, ha, hab⟩ := h b b.2
      exact ih ⟨a, ha⟩ (.single hab)
  exact hno ⟨l.head hl, l.head_mem hl⟩

namespace Graph

/-- All edges lead between nodes. -/
def WellFormed (g : Graph) : Prop := ∀ e ∈ g.edges, e.1 < g.size ∧ e.2 < g.size

def Edge (g : Graph) (a b : Nat) : Prop := (a, b) ∈ g.edges

theorem mem_successors {g : Graph} (hg : g.WellFormed) {a b : Nat} :
    b ∈ g.successors a ↔ g.Edge a b := by
  unfold successors
  rw [List.mem_filter, List.mem_range, decide_eq_true_eq]
  constructor
  · intro h
    exact h.2
  · intro h
    exact ⟨(hg _ h).2, h⟩

theorem nodup_successors (g : Graph) (a : Nat) : (g.successors a).Nodup :=
  List.nodup_range.filter _

theorem orderFrom_subperm (n : Nat) (nodes : List Nat) (edges : List (Nat × Nat)) :
    ∃ rest, (orderFrom n nodes edges ++ rest).Perm nodes := by
  induction n generalizing nodes edges with
  | zero => exact ⟨nodes, by simp [orderFrom]⟩
  | succ n ih =>
    unfold orderFrom
    split
    · exact ⟨nodes, by simp⟩
    · next i hi =>
      obtain ⟨rest, h⟩ := ih (nodes.erase i) (edges.filter (·.1 ≠ i))
      exact ⟨rest, (h.cons i).trans (List.perm_cons_erase (List.mem_of_find?_eq_some hi)).symm⟩

/-- Whatever stands in the order stands after everything that an edge leads from. -/
theorem precedes_orderFrom (n : Nat) {nodes : List Nat} {edges : List (Nat × Nat)} {a b : Nat}
    (he : (a, b) ∈ edges) (hb : b ∈ orderFrom n nodes edges) :
    Precedes (orderFrom n nodes edges) a b := by
  induction n generalizing nodes edges with
  | zero => simp [orderFrom] at hb
  | succ n ih =>
    unfold orderFrom at hb ⊢
    split at hb
    · simp at hb
    · next i hi =>
      have hfree : b ≠ i := by
        have h := List.find?_some hi
        simp only [List.all_eq_true, decide_eq_true_eq] at h
        exact h _ he
      have hb' := (List.mem_cons.mp hb).resolve_left hfree
      by_cases ha : a = i
      · subst ha
        exact .head hb'
      · exact (ih (by simp [he, ha]) hb').cons

/-- The invariant of the loop is that edges come from nodes that are left. -/
theorem length_orderFrom (n : Nat) (nodes : List Nat) (edges : List (Nat × Nat))
    (hn : nodes.length ≤ n) (hd : nodes.Nodup) (he : ∀ e ∈ edges, e.1 ∈ nodes)
    (hc : ¬ Cyclic fun a b => (a, b) ∈ edges) :
    (orderFrom n nodes edges).length = nodes.length := by
  induction n generalizing nodes edges with
  | zero => simp_all [orderFrom]
  | succ n ih =>
    unfold orderFrom
    split
    · next hi =>
      by_contra hne
      have hnil : nodes ≠ [] := by
        rintro rfl
        exact hne rfl
      refine hc (cyclic_of_forall_exists hnil fun b hb => ?_)
      have hwait := List.find?_eq_none.mp hi b hb
      simp only [List.all_eq_true, decide_eq_true_eq, not_forall, not_not] at hwait
      obtain ⟨⟨a, c⟩, hac, rfl⟩ := hwait
      exact ⟨a, he _ hac, hac⟩
    · next i hi =>
      have hmem := List.mem_of_find?_eq_some hi
      have hlen := List.length_erase_of_mem hmem
      have hpos := List.length_pos_of_mem hmem
      have hstep := ih (nodes.erase i) (edges.filter (·.1 ≠ i)) (by omega)
        (hd.erase i)
        (fun e h => by
          simp only [List.mem_filter, decide_eq_true_eq] at h
          exact (List.mem_erase_of_ne h.2).mpr (he e h.1))
        (fun h => hc (h.mono fun _ _ hab => (List.mem_filter.mp hab).1))
      simp only [List.length_cons, hstep]
      omega

theorem greedyOrder_subperm (g : Graph) :
    ∃ rest, (g.greedyOrder ++ rest).Perm (List.range g.size) :=
  orderFrom_subperm g.size _ g.edges

/-- An order without gaps is a permutation of the nodes. -/
theorem greedyOrder_perm {g : Graph} (h : g.greedyOrder.length = g.size) :
    g.greedyOrder.Perm (List.range g.size) := by
  obtain ⟨rest, hp⟩ := g.greedyOrder_subperm
  have hlen := hp.length_eq
  simp only [List.length_append, List.length_range, h] at hlen
  have : rest = [] := List.eq_nil_of_length_eq_zero (by omega)
  simpa [this] using hp

theorem greedyOrder_nodup (g : Graph) : g.greedyOrder.Nodup := by
  obtain ⟨rest, hp⟩ := g.greedyOrder_subperm
  exact (List.nodup_append.mp (hp.nodup_iff.mpr List.nodup_range)).1

theorem precedes_greedyOrder {g : Graph} {a b : Nat} (he : g.Edge a b)
    (hb : b ∈ g.greedyOrder) : Precedes g.greedyOrder a b :=
  precedes_orderFrom g.size he hb

theorem length_greedyOrder_iff {g : Graph} (hg : g.WellFormed) :
    g.greedyOrder.length = g.size ↔ ¬ Cyclic g.Edge := by
  constructor
  · intro h
    have hp := greedyOrder_perm h
    refine Precedes.not_cyclic g.greedyOrder_nodup fun a b hab => precedes_greedyOrder hab ?_
    exact hp.mem_iff.mpr (List.mem_range.mpr (hg _ hab).2)
  · intro h
    have hl := length_orderFrom g.size _ g.edges (by simp) List.nodup_range
      (fun e he => List.mem_range.mpr (hg e he).1) h
    simpa [greedyOrder] using hl

end Graph
end BindingModel
