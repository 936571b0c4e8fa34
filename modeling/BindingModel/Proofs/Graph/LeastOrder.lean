import BindingModel.Proofs.Graph.ClassGraph
import BindingModel.Proofs.Graph.Counting
import BindingModel.Proofs.Graph.Search

/-! Of all orders that honour the edges, the greedy one is the least, place by place. So nothing
else decides about it than the order of the nodes and the set of edges. -/
namespace BindingModel

/-- What precedes behind another start precedes in what follows that. -/
theorem Precedes.tail {α : Type} {l : List α} {a b c : α} (h : Precedes (c :: l) a b)
    (hac : a ≠ c) : Precedes l a b := by
  cases h with
  | cons _ h => exact h
  | cons_cons => exact absurd rfl hac

/-- What stands first where nothing is repeated is preceded by nothing. -/
theorem Precedes.not_head {α : Type} {l : List α} {a b : α} (hl : (b :: l).Nodup) :
    ¬ Precedes (b :: l) a b := by
  have hb := (List.nodup_cons.mp hl).1
  intro h
  cases h with
  | cons _ h => exact hb (mem_right h)
  | cons_cons _ h => exact hb (List.singleton_sublist.mp h)

namespace Graph

theorem eq_nil_or_lex (l : List Nat) : l = [] ∨ List.Lex (· < ·) [] l := by
  cases l with
  | nil => exact .inl rfl
  | cons i l => exact .inr .nil

/-- The first of an order is free, so the least free node is no greater. Where both are the same,
the rest of the order honours the rest of the edges. -/
theorem orderFrom_least (n : Nat) {nodes l : List Nat} {edges : List (Nat × Nat)}
    (hs : nodes.Pairwise (· < ·)) (hl : l.Perm nodes)
    (hpre : ∀ a b, (a, b) ∈ edges → Precedes l a b) :
    l = orderFrom n nodes edges ∨ List.Lex (· < ·) (orderFrom n nodes edges) l := by
  induction n generalizing nodes l edges with
  | zero => exact eq_nil_or_lex l
  | succ n ih =>
    unfold orderFrom
    split
    · exact eq_nil_or_lex l
    · next i hi =>
      obtain ⟨⟨hnode, -⟩, hleast⟩ := (find?_free hs).mp hi
      have hnodup : l.Nodup := hl.nodup_iff.mpr (hs.imp fun hab => Nat.ne_of_lt hab)
      cases l with
      | nil => exact absurd (hl.mem_iff.mpr hnode) List.not_mem_nil
      | cons j rest =>
        have hfree : edges.all (·.2 ≠ j) = true := by
          simp only [List.all_eq_true, decide_eq_true_eq]
          rintro ⟨a, b⟩ hab rfl
          exact Precedes.not_head hnodup (hpre a b hab)
        have hij : i ≤ j := hleast j (hl.mem_iff.mp List.mem_cons_self) hfree
        rcases Nat.lt_or_eq_of_le hij with hij | rfl
        · exact .inr (.rel hij)
        · have hrest : rest.Perm (nodes.erase i) :=
            (hl.trans (List.perm_cons_erase hnode)).cons_inv
          have hpre' : ∀ a b, (a, b) ∈ edges.filter (·.1 ≠ i) → Precedes rest a b := by
            intro a b hab
            simp only [List.mem_filter, decide_eq_true_eq] at hab
            exact (hpre a b hab.1).tail hab.2
          rcases ih (hs.sublist List.erase_sublist) hrest hpre' with heq | hlex
          · exact .inl (congrArg (i :: ·) heq)
          · exact .inr (.cons hlex)

theorem greedyOrder_least (g : Graph) {l : List Nat} (hl : l.Perm (List.range g.size))
    (hpre : ∀ a b, g.Edge a b → Precedes l a b) :
    l = g.greedyOrder ∨ List.Lex (· < ·) g.greedyOrder l :=
  orderFrom_least g.size List.pairwise_lt_range hl hpre

theorem orderFrom_congr (n : Nat) (nodes : List Nat) {edges edges' : List (Nat × Nat)}
    (h : ∀ e, e ∈ edges ↔ e ∈ edges') : orderFrom n nodes edges = orderFrom n nodes edges' := by
  induction n generalizing nodes edges edges' with
  | zero => rfl
  | succ n ih =>
    have hfree : (fun i => edges.all (·.2 ≠ i)) = fun i => edges'.all (·.2 ≠ i) := by
      funext i
      rw [Bool.eq_iff_iff]
      simp only [List.all_eq_true, h]
    have hrest : ∀ i e, e ∈ edges.filter (·.1 ≠ i) ↔ e ∈ edges'.filter (·.1 ≠ i) := by
      intro i e
      simp only [List.mem_filter, h]
    unfold orderFrom
    rw [hfree]
    cases nodes.find? fun i => edges'.all (·.2 ≠ i) with
    | none => rfl
    | some i => exact congrArg (i :: ·) (ih (nodes.erase i) (hrest i))

/-- Without edges every node is free. -/
theorem orderFrom_nil (nodes : List Nat) : orderFrom nodes.length nodes [] = nodes := by
  induction nodes with
  | nil => rfl
  | cons i nodes ih => simp [orderFrom, ih]

theorem greedyOrder_of_no_edges (n : Nat) : greedyOrder ⟨n, []⟩ = List.range n := by
  have hnil := orderFrom_nil (List.range n)
  rwa [List.length_range] at hnil

end Graph

namespace Api.ClassGraph

/-- The class that a call adds. -/
def Call.added? : Call → Option ClassId
  | .node c => some c
  | .edge _ _ => none

/-- The classes that some calls add, in the order of the first call for each. -/
def added (calls : List Call) : List ClassId := (calls.filterMap Call.added?).eraseDups

/-- How many classes were added before `c`. -/
def place (calls : List Call) (c : ClassId) : Nat := (added calls).idxOf c

/-- Every added class once, and after those from which recorded edges lead to it. -/
structure Honours (calls : List Call) (l : List ClassId) : Prop where
  nodup : l.Nodup
  mem_iff : ∀ c, c ∈ l ↔ .node c ∈ calls
  precedes : ∀ x y, Recorded calls x y → Precedes l x y

theorem added_node (calls : List Call) (c : ClassId) : added (calls ++ [.node c]) =
    if c ∈ added calls then added calls else added calls ++ [c] := by
  have hmem : c ∈ added calls ↔ c ∈ calls.filterMap Call.added? := List.mem_eraseDups
  have hlast : [Call.node c].filterMap Call.added? = [c] := rfl
  rw [added, List.filterMap_append, hlast, Search.eraseDups_concat]
  simp only [hmem]
  rfl

theorem added_edge (calls : List Call) (x y : ClassId) :
    added (calls ++ [.edge x y]) = added calls := by
  have hlast : [Call.edge x y].filterMap Call.added? = [] := rfl
  rw [added, List.filterMap_append, hlast, List.append_nil, added]

theorem nodes_ofCalls (calls : List Call) : (ofCalls calls).nodes = added calls := by
  induction calls using List.reverseRecOn with
  | nil => rfl
  | append_singleton calls k ih =>
    rw [ofCalls_snoc]
    cases k with
    | node c =>
      rw [added_node, ← ih]
      show ((ofCalls calls).addNode c).nodes = _
      unfold addNode
      split <;> rfl
    | edge x y =>
      rw [added_edge, ← ih]
      exact nodes_addEdge _ x y

section
variable {calls : List Call}

theorem nodup_added : (added calls).Nodup := nodes_ofCalls calls ▸ (wellFormed_ofCalls calls).nodup

theorem mem_added {c : ClassId} : c ∈ added calls ↔ .node c ∈ calls := by
  rw [← nodes_ofCalls]
  exact mem_nodes_ofCalls

theorem place_getD {i : Nat} (hi : i < (added calls).length) :
    place calls ((added calls).getD i 0) = i := by
  rw [List.getD_eq_getElem?_getD, List.getElem?_eq_getElem hi]
  exact nodup_added.idxOf_getElem i hi

theorem getD_place {c : ClassId} (hc : .node c ∈ calls) :
    (added calls).getD (place calls c) 0 = c := by
  have hlt := List.idxOf_lt_length_of_mem (mem_added.mpr hc)
  rw [List.getD_eq_getElem?_getD, place, List.getElem?_eq_getElem hlt, List.getElem_idxOf hlt]
  rfl

/-- An edge is recorded between two places as it is between the classes there. -/
theorem edge_iff {a b : Nat} : (ofCalls calls).graph.Edge a b ↔
    ∃ x y, Recorded calls x y ∧ place calls x = a ∧ place calls y = b := by
  have hg := wellFormed_ofCalls calls
  constructor
  · intro hab
    obtain ⟨ha, hb⟩ := hg.inRange _ hab
    have ha : a < (added calls).length := nodes_ofCalls calls ▸ ha
    have hb : b < (added calls).length := nodes_ofCalls calls ▸ hb
    refine ⟨_, _, edge_ofCalls.mp ⟨a, b, hab, ?_, ?_⟩, place_getD ha, place_getD hb⟩
    · rw [nodes_ofCalls, List.getD_eq_getElem?_getD, List.getElem?_eq_getElem ha]
      rfl
    · rw [nodes_ofCalls, List.getD_eq_getElem?_getD, List.getElem?_eq_getElem hb]
      rfl
  · rintro ⟨x, y, h, rfl, rfl⟩
    obtain ⟨a, b, hab, hx, hy⟩ := edge_ofCalls.mpr h
    rw [nodes_ofCalls] at hx hy
    obtain ⟨ha, rfl⟩ := List.getElem?_eq_some_iff.mp hx
    obtain ⟨hb, rfl⟩ := List.getElem?_eq_some_iff.mp hy
    rwa [place, place, nodup_added.idxOf_getElem a ha, nodup_added.idxOf_getElem b hb]

theorem size_graph : (ofCalls calls).graph.size = (added calls).length := by
  rw [← nodes_ofCalls]
  rfl

theorem map_place_added : (added calls).map (place calls) = List.range (added calls).length := by
  refine List.ext_getElem (by simp) fun i hi hi' => ?_
  rw [List.getElem_map, List.getElem_range]
  exact nodup_added.idxOf_getElem i (by simpa using hi)

/-- The classes at some places are at these places. -/
theorem map_place_map {order : List Nat} (h : ∀ i ∈ order, i < (added calls).length) :
    (order.map ((added calls).getD · 0)).map (place calls) = order := by
  rw [List.map_map]
  exact (List.map_congr_left fun i hi => place_getD (h i hi)).trans (List.map_id order)

theorem Honours.map_place {l : List ClassId} (h : Honours calls l) :
    (l.map (place calls)).map ((added calls).getD · 0) = l := by
  rw [List.map_map]
  exact (List.map_congr_left fun c hc => getD_place ((h.mem_iff c).mp hc)).trans (List.map_id l)

theorem Honours.perm {l : List ClassId} (h : Honours calls l) : l.Perm (added calls) :=
  (List.perm_ext_iff_of_nodup h.nodup nodup_added).mpr fun c =>
    (h.mem_iff c).trans mem_added.symm

theorem lt_of_mem_greedyOrder {i : Nat} (hi : i ∈ (ofCalls calls).graph.greedyOrder) :
    i < (added calls).length := by
  obtain ⟨rest, hperm⟩ := (ofCalls calls).graph.greedyOrder_subperm
  have hrange := hperm.mem_iff.mp (List.mem_append_left rest hi)
  rw [← size_graph]
  exact List.mem_range.mp hrange

/-- The classes in the greedy order of their places. -/
def greedyClasses (calls : List Call) : List ClassId :=
  (ofCalls calls).graph.greedyOrder.map ((added calls).getD · 0)

theorem map_place_greedyClasses :
    (greedyClasses calls).map (place calls) = (ofCalls calls).graph.greedyOrder :=
  map_place_map fun _ hi => lt_of_mem_greedyOrder hi

theorem order_ofCalls_eq (s : ClassStore) (hc : ¬ Cyclic (Recorded calls)) :
    (ofCalls calls).order s = .ok (greedyClasses calls) := by
  rw [← edge_eq_recorded] at hc
  rw [order_of_acyclic (wellFormed_ofCalls calls) s hc, nodes_ofCalls, greedyClasses]

theorem honours_greedyClasses (hc : ¬ Cyclic (Recorded calls)) :
    Honours calls (greedyClasses calls) := by
  have hg := wellFormed_ofCalls calls
  obtain ⟨l, hl, hperm, hpre⟩ := order_eq_ok hg {} (edge_eq_recorded calls ▸ hc)
  obtain rfl := Except.ok.inj ((order_ofCalls_eq {} hc).symm.trans hl)
  exact ⟨hperm.nodup_iff.mpr hg.nodup, fun c => hperm.mem_iff.trans mem_nodes_ofCalls,
    fun x y h => hpre x y (edge_ofCalls.mpr h)⟩

theorem greedyClasses_least {l : List ClassId} (h : Honours calls l)
    (hne : l ≠ greedyClasses calls) :
    List.Lex (· < ·) ((greedyClasses calls).map (place calls)) (l.map (place calls)) := by
  have hperm : (l.map (place calls)).Perm (List.range (ofCalls calls).graph.size) := by
    rw [size_graph, ← map_place_added]
    exact h.perm.map (place calls)
  have hpre : ∀ a b, (ofCalls calls).graph.Edge a b → Precedes (l.map (place calls)) a b := by
    intro a b hab
    obtain ⟨x, y, hxy, rfl, rfl⟩ := edge_iff.mp hab
    exact (h.precedes x y hxy).map (place calls)
  rw [map_place_greedyClasses]
  refine (Graph.greedyOrder_least _ hperm hpre).resolve_left fun heq => hne ?_
  rw [← h.map_place, heq, greedyClasses]

/-- Only the order of the classes and the set of edges count, not how often and in which order the
edges were asked for. -/
theorem greedyClasses_congr {calls' : List Call} (hadded : added calls' = added calls)
    (hrecorded : ∀ x y, Recorded calls' x y ↔ Recorded calls x y) :
    greedyClasses calls' = greedyClasses calls := by
  have hedges : ∀ e, e ∈ (ofCalls calls').graph.edges ↔ e ∈ (ofCalls calls).graph.edges := by
    rintro ⟨a, b⟩
    have hplace : place calls' = place calls := by
      funext c
      rw [place, hadded, place]
    refine edge_iff.trans (Iff.trans ?_ edge_iff.symm)
    simp only [hrecorded, hplace]
  unfold greedyClasses Graph.greedyOrder
  rw [size_graph, size_graph, hadded, Graph.orderFrom_congr _ _ hedges]

theorem greedyClasses_of_no_edges (h : ∀ x y, ¬ Recorded calls x y) :
    greedyClasses calls = added calls := by
  have hedges : (ofCalls calls).graph.edges = [] := by
    refine List.eq_nil_iff_forall_not_mem.mpr ?_
    rintro ⟨a, b⟩ hab
    obtain ⟨x, y, hxy, -⟩ := edge_iff.mp hab
    exact h x y hxy
  have hgraph : (ofCalls calls).graph = ⟨(added calls).length, []⟩ := by
    rw [← size_graph, ← hedges]
  rw [greedyClasses, hgraph, Graph.greedyOrder_of_no_edges, ← map_place_added]
  exact Honours.map_place ⟨nodup_added, fun _ => mem_added, fun x y hxy => absurd hxy (h x y)⟩

end

/-- Without a cycle the order is, by the places at which classes were added, lexicographically less
than every other order that honours the edges. So it depends on nothing but the order of the classes
and the set of edges, and whatever the order in which edges are counted and followed, counting comes
to it. Without edges the classes stay as they were added. -/
theorem order_least (calls : List Call) (s : ClassStore) (hc : ¬ Cyclic (Recorded calls)) :
    ∃ l, (ofCalls calls).order s = .ok l ∧ Honours calls l ∧
      (∀ k, Honours calls k → k ≠ l →
        List.Lex (· < ·) (l.map (place calls)) (k.map (place calls))) ∧
      (∀ calls', added calls' = added calls →
        (∀ x y, Recorded calls' x y ↔ Recorded calls x y) → (ofCalls calls').order s = .ok l) ∧
      (∀ order, (ofCalls calls).graph.Counted order ↔ order = l.map (place calls)) ∧
      ((∀ x y, ¬ Recorded calls x y) → l = added calls) := by
  refine ⟨greedyClasses calls, order_ofCalls_eq s hc, honours_greedyClasses hc,
    fun k hk hne => greedyClasses_least hk hne, ?_, ?_, greedyClasses_of_no_edges⟩
  · intro calls' hadded hrecorded
    have hsame : Recorded calls' = Recorded calls := by
      funext x y
      exact propext (hrecorded x y)
    rw [order_ofCalls_eq s (hsame ▸ hc), greedyClasses_congr hadded hrecorded]
  · intro order
    rw [map_place_greedyClasses]
    exact Graph.counted_iff (wellFormed_ofCalls calls).inRange

/-- Three classes, the last of which has to come before the first. -/
def swappedCalls : List Call := [.node 0, .node 1, .node 2, .node 0, .edge 2 0, .edge 0 0]

theorem order_least_swapped :
    ¬ Cyclic (Recorded swappedCalls) ∧ (ofCalls swappedCalls).order {} = .ok [1, 2, 0] ∧
      ∀ k, Honours swappedCalls k → k ≠ [1, 2, 0] →
        List.Lex (· < ·) [1, 2, 0] (k.map (place swappedCalls)) := by
  have hacyclic : ¬ Cyclic (Recorded swappedCalls) := by
    refine Precedes.not_cyclic (l := [1, 2, 0]) (by decide) fun x y h => ?_
    obtain ⟨earlier, later, hcalls, hne, -⟩ := h
    have hmem : .edge x y ∈ swappedCalls := by rw [hcalls]; simp
    simp only [swappedCalls, List.mem_cons, List.not_mem_nil, reduceCtorEq, false_or, or_false,
      Call.edge.injEq] at hmem
    rcases hmem with ⟨rfl, rfl⟩ | ⟨rfl, rfl⟩
    · show [2, 0].Sublist [1, 2, 0]
      decide
    · exact absurd rfl hne
  obtain ⟨l, hl, -, hleast, -⟩ := order_least swappedCalls {} hacyclic
  have horder : (ofCalls swappedCalls).order {} = .ok [1, 2, 0] := rfl
  obtain rfl := Except.ok.inj (horder.symm.trans hl)
  exact ⟨hacyclic, horder, hleast⟩

end Api.ClassGraph
end BindingModel
