import BindingModel.Api.ClassGraph
import BindingModel.Proofs.Graph.GreedyOrder

/-! A graph of classes, built call by call, orders its classes whenever the edges that it recorded
form no cycle, and reports a cycle otherwise. -/
namespace BindingModel.Api.ClassGraph

/-- Classes are numbered once, and edges lead between two of the numbers. -/
structure WellFormed (g : ClassGraph) : Prop where
  nodup : g.nodes.Nodup
  inRange : g.graph.WellFormed
  loopless : ∀ a, (a, a) ∉ g.edges

/-- The edge from one class to another is recorded. -/
def Edge (g : ClassGraph) (x y : ClassId) : Prop :=
  ∃ a b, (a, b) ∈ g.edges ∧ g.nodes[a]? = some x ∧ g.nodes[b]? = some y

theorem wellFormed_empty : WellFormed {} :=
  ⟨List.nodup_nil, fun _ h => by simp [graph] at h, fun _ h => by simp at h⟩

theorem idxOf?_eq_some {l : List ClassId} (hl : l.Nodup) {x : ClassId} {a : Nat} :
    l.idxOf? x = some a ↔ l[a]? = some x := by
  rw [List.idxOf?_eq_some_iff, List.getElem?_eq_some_iff]
  constructor
  · intro h
    obtain ⟨ha, hx, -⟩ := h
    exact ⟨ha, by simpa using hx⟩
  · intro h
    obtain ⟨ha, hx⟩ := h
    refine ⟨ha, by simpa using hx, fun j hj he => ?_⟩
    have hjx : l[j] = l[a] := by rw [hx]; simpa using he
    have := hl.getElem_inj_iff.mp hjx
    omega

/-! ### One call -/

@[simp] theorem mem_nodes_addNode {g : ClassGraph} {c d : ClassId} :
    c ∈ (g.addNode d).nodes ↔ c ∈ g.nodes ∨ c = d := by
  unfold addNode
  split
  · next h =>
    constructor
    · exact .inl
    · intro h
      rcases h with hc | rfl
      · exact hc
      · exact h
  · simp

theorem isPrefix_nodes_addNode (g : ClassGraph) (d : ClassId) :
    g.nodes <+: (g.addNode d).nodes := by
  unfold addNode
  split
  · exact List.prefix_refl _
  · exact List.prefix_append _ _

@[simp] theorem edges_addNode (g : ClassGraph) (d : ClassId) : (g.addNode d).edges = g.edges := by
  unfold addNode
  split <;> rfl

theorem WellFormed.addNode {g : ClassGraph} (hg : g.WellFormed) (d : ClassId) :
    (g.addNode d).WellFormed := by
  have hlen := (isPrefix_nodes_addNode g d).length_le
  refine ⟨?_, fun e he => ?_, ?_⟩
  · unfold ClassGraph.addNode
    split
    · exact hg.nodup
    · next h => exact List.nodup_append.mpr ⟨hg.nodup, by simp, fun x hx y hy => by
        rw [List.mem_singleton] at hy
        exact fun hxy => h (hy ▸ hxy ▸ hx)⟩
  · have he' : e ∈ g.graph.edges := by simpa [graph] using he
    have := hg.inRange e he'
    exact ⟨this.1.trans_le hlen, this.2.trans_le hlen⟩
  · simpa using hg.loopless

theorem edge_addNode {g : ClassGraph} (hg : g.WellFormed) {d x y : ClassId} :
    (g.addNode d).Edge x y ↔ g.Edge x y := by
  have hkeep : ∀ a, a < g.nodes.length → (g.addNode d).nodes[a]? = g.nodes[a]? := by
    intro a ha
    obtain ⟨l, hl⟩ := isPrefix_nodes_addNode g d
    rw [← hl, List.getElem?_append_left ha]
  constructor
  · intro h
    obtain ⟨a, b, hab, hx, hy⟩ := h
    rw [edges_addNode] at hab
    obtain ⟨ha, hb⟩ := hg.inRange _ hab
    exact ⟨a, b, hab, by rwa [hkeep a ha] at hx, by rwa [hkeep b hb] at hy⟩
  · intro h
    obtain ⟨a, b, hab, hx, hy⟩ := h
    obtain ⟨ha, hb⟩ := hg.inRange _ hab
    exact ⟨a, b, by rwa [edges_addNode], by rwa [hkeep a ha], by rwa [hkeep b hb]⟩

/-- An edge call does nothing, or it records the edge between two different known classes. -/
theorem addEdge_cases {g : ClassGraph} (hg : g.WellFormed) (u v : ClassId) :
    (g.addEdge u v = g ∧ ¬ (u ≠ v ∧ u ∈ g.nodes ∧ v ∈ g.nodes)) ∨
    ∃ a b, u ≠ v ∧ a ≠ b ∧ g.nodes[a]? = some u ∧ g.nodes[b]? = some v ∧
      g.addEdge u v = { g with edges := (g.graph.addEdge a b).edges } := by
  unfold addEdge addEdge?
  cases hu : g.nodes.idxOf? u with
  | none => exact .inl ⟨rfl, fun h => List.idxOf?_eq_none_iff.mp hu h.2.1⟩
  | some a =>
    cases hv : g.nodes.idxOf? v with
    | none => exact .inl ⟨rfl, fun h => List.idxOf?_eq_none_iff.mp hv h.2.2⟩
    | some b =>
      have ha := (idxOf?_eq_some hg.nodup).mp hu
      have hb := (idxOf?_eq_some hg.nodup).mp hv
      by_cases hab : a = b
      · have huv : u = v := by
          rw [hab, hb] at ha
          exact (Option.some.inj ha).symm
        exact .inl ⟨by simp [hab], fun h => h.1 huv⟩
      · have huv : u ≠ v := by
          rintro rfl
          rw [hu] at hv
          exact hab (Option.some.inj hv)
        exact .inr ⟨a, b, huv, hab, ha, hb, by simp [hab]⟩

theorem mem_edges_graph_addEdge {g : Graph} {a b : Nat} {e : Nat × Nat} :
    e ∈ (g.addEdge a b).edges ↔ e ∈ g.edges ∨ e = (a, b) := by
  unfold Graph.addEdge
  split
  · next h =>
    constructor
    · exact .inl
    · intro h
      rcases h with he | rfl
      · exact he
      · exact h
  · simp

@[simp] theorem nodes_addEdge (g : ClassGraph) (u v : ClassId) :
    (g.addEdge u v).nodes = g.nodes := by
  unfold addEdge addEdge?
  split
  · split <;> rfl
  · rfl

theorem WellFormed.addEdge {g : ClassGraph} (hg : g.WellFormed) (u v : ClassId) :
    (g.addEdge u v).WellFormed := by
  rcases addEdge_cases hg u v with ⟨he, -⟩ | ⟨a, b, -, hab, ha, hb, he⟩
  · rwa [he]
  · rw [he]
    have ha := (List.getElem?_eq_some_iff.mp ha).1
    have hb := (List.getElem?_eq_some_iff.mp hb).1
    refine ⟨hg.nodup, fun e h => ?_, fun c h => ?_⟩
    · rcases mem_edges_graph_addEdge.mp h with h | rfl
      · exact hg.inRange e h
      · exact ⟨ha, hb⟩
    · rcases mem_edges_graph_addEdge.mp h with h | h
      · exact hg.loopless c h
      · obtain ⟨rfl, rfl⟩ := Prod.mk.inj h
        exact hab rfl

theorem edge_addEdge {g : ClassGraph} (hg : g.WellFormed) {u v x y : ClassId} :
    (g.addEdge u v).Edge x y ↔
      g.Edge x y ∨ (u ≠ v ∧ u ∈ g.nodes ∧ v ∈ g.nodes) ∧ x = u ∧ y = v := by
  rcases addEdge_cases hg u v with ⟨he, hno⟩ | ⟨a, b, huv, -, ha, hb, he⟩
  · rw [he]
    exact ⟨.inl, fun h => h.resolve_right fun h => hno h.1⟩
  · have hu := List.mem_of_getElem? ha
    have hv := List.mem_of_getElem? hb
    rw [he]
    constructor
    · intro h
      obtain ⟨i, j, hij, hx, hy⟩ := h
      rcases mem_edges_graph_addEdge.mp hij with hij | hij
      · exact .inl ⟨i, j, hij, hx, hy⟩
      · obtain ⟨rfl, rfl⟩ := Prod.mk.inj hij
        exact .inr ⟨⟨huv, hu, hv⟩, Option.some.inj (hx.symm.trans ha),
          Option.some.inj (hy.symm.trans hb)⟩
    · intro h
      rcases h with ⟨i, j, hij, hx, hy⟩ | ⟨-, rfl, rfl⟩
      · exact ⟨i, j, mem_edges_graph_addEdge.mpr (.inl hij), hx, hy⟩
      · exact ⟨a, b, mem_edges_graph_addEdge.mpr (.inr rfl), ha, hb⟩

/-! ### All calls -/

/-- A call while a graph is built. -/
inductive Call
  | node (c : ClassId)
  | edge (before after : ClassId)
  deriving DecidableEq, Repr

def perform (g : ClassGraph) : Call → ClassGraph
  | .node c => g.addNode c
  | .edge x y => g.addEdge x y

/-- The graph that the calls make of an empty one. -/
def ofCalls (calls : List Call) : ClassGraph := calls.foldl perform {}

/-- The calls ask for an edge between two different classes, each of which was added before. -/
def Recorded (calls : List Call) (x y : ClassId) : Prop :=
  ∃ earlier later, calls = earlier ++ .edge x y :: later ∧ x ≠ y ∧
    .node x ∈ earlier ∧ .node y ∈ earlier

theorem ofCalls_snoc (calls : List Call) (k : Call) :
    ofCalls (calls ++ [k]) = (ofCalls calls).perform k := by
  simp [ofCalls]

theorem recorded_snoc {calls : List Call} {k : Call} {x y : ClassId} :
    Recorded (calls ++ [k]) x y ↔
      Recorded calls x y ∨ k = .edge x y ∧ x ≠ y ∧ .node x ∈ calls ∧ .node y ∈ calls := by
  constructor
  · intro h
    obtain ⟨earlier, later, h, hne, hx, hy⟩ := h
    rcases List.eq_nil_or_concat later with rfl | ⟨later, z, rfl⟩
    · obtain ⟨rfl, hk⟩ := List.append_inj' h rfl
      exact .inr ⟨by simpa using hk, hne, hx, hy⟩
    · have h : calls ++ [k] = (earlier ++ .edge x y :: later) ++ [z] := by simpa using h
      obtain ⟨rfl, -⟩ := List.append_inj' h rfl
      exact .inl ⟨earlier, later, rfl, hne, hx, hy⟩
  · intro h
    rcases h with ⟨earlier, later, rfl, h⟩ | ⟨rfl, h⟩
    · exact ⟨earlier, later ++ [k], by simp, h⟩
    · exact ⟨calls, [], rfl, h⟩

theorem wellFormed_ofCalls (calls : List Call) : (ofCalls calls).WellFormed := by
  induction calls using List.reverseRecOn with
  | nil => exact wellFormed_empty
  | append_singleton calls k ih =>
    rw [ofCalls_snoc]
    cases k with
    | node c => exact ih.addNode c
    | edge x y => exact ih.addEdge x y

theorem mem_nodes_ofCalls {calls : List Call} {c : ClassId} :
    c ∈ (ofCalls calls).nodes ↔ .node c ∈ calls := by
  induction calls using List.reverseRecOn with
  | nil => simp [ofCalls]
  | append_singleton calls k ih =>
    rw [ofCalls_snoc]
    cases k with
    | node d => simp [perform, ih]
    | edge x y => simp [perform, ih]

theorem edge_ofCalls {calls : List Call} {x y : ClassId} :
    (ofCalls calls).Edge x y ↔ Recorded calls x y := by
  induction calls using List.reverseRecOn with
  | nil => simp [ofCalls, Edge, Recorded]
  | append_singleton calls k ih =>
    have hg := wellFormed_ofCalls calls
    rw [ofCalls_snoc, recorded_snoc, ← ih]
    cases k with
    | node d => simp [perform, edge_addNode hg]
    | edge u v =>
      simp only [perform, edge_addEdge hg, mem_nodes_ofCalls, Call.edge.injEq]
      constructor
      · intro h
        rcases h with h | ⟨h, rfl, rfl⟩
        · exact .inl h
        · exact .inr ⟨⟨rfl, rfl⟩, h⟩
      · intro h
        rcases h with h | ⟨⟨rfl, rfl⟩, h⟩
        · exact .inl h
        · exact .inr ⟨h, rfl, rfl⟩

theorem edge_eq_recorded (calls : List Call) : (ofCalls calls).Edge = Recorded calls := by
  funext x y
  exact propext edge_ofCalls

/-! ### The order -/

theorem cyclic_graph_iff {g : ClassGraph} (hg : g.WellFormed) :
    Cyclic g.graph.Edge ↔ Cyclic g.Edge := by
  constructor
  · intro h
    obtain ⟨a, ha⟩ := h
    refine ⟨g.nodes.getD a 0, ha.lift (g.nodes.getD · 0) fun i j hij => ?_⟩
    obtain ⟨hi, hj⟩ := hg.inRange _ hij
    exact ⟨i, j, hij, by simp [List.getElem?_eq_getElem hi], by simp [List.getElem?_eq_getElem hj]⟩
  · intro h
    obtain ⟨x, hx⟩ := h
    refine ⟨g.nodes.idxOf x, hx.lift (g.nodes.idxOf ·) fun u v huv => ?_⟩
    obtain ⟨a, b, hab, hu, hv⟩ := huv
    obtain ⟨ha, rfl⟩ := List.getElem?_eq_some_iff.mp hu
    obtain ⟨hb, rfl⟩ := List.getElem?_eq_some_iff.mp hv
    show (g.nodes.idxOf g.nodes[a], g.nodes.idxOf g.nodes[b]) ∈ g.edges
    rwa [hg.nodup.idxOf_getElem a ha, hg.nodup.idxOf_getElem b hb]

theorem length_greedyOrder_iff {g : ClassGraph} (hg : g.WellFormed) :
    g.graph.greedyOrder.length = g.nodes.length ↔ ¬ Cyclic g.Edge := by
  rw [← cyclic_graph_iff hg]
  exact Graph.length_greedyOrder_iff hg.inRange

theorem order_of_acyclic {g : ClassGraph} (hg : g.WellFormed) (s : ClassStore)
    (hc : ¬ Cyclic g.Edge) : g.order s = .ok (g.graph.greedyOrder.map (g.nodes.getD · 0)) := by
  unfold order
  rw [if_pos ((length_greedyOrder_iff hg).mpr hc)]
  rfl

theorem order_eq_ok {g : ClassGraph} (hg : g.WellFormed) (s : ClassStore)
    (hc : ¬ Cyclic g.Edge) :
    ∃ l, g.order s = .ok l ∧ l.Perm g.nodes ∧ ∀ x y, g.Edge x y → Precedes l x y := by
  have hp := Graph.greedyOrder_perm ((length_greedyOrder_iff hg).mpr hc)
  refine ⟨g.graph.greedyOrder.map (g.nodes.getD · 0), order_of_acyclic hg s hc, ?_, ?_⟩
  · have hall : (List.range g.nodes.length).map (g.nodes.getD · 0) = g.nodes := by
      refine List.ext_getElem (by simp) fun i hi hi' => ?_
      simp [List.getElem?_eq_getElem hi']
    exact (hp.map _).trans (.of_eq hall)
  · intro x y h
    obtain ⟨a, b, hab, hx, hy⟩ := h
    have hb : b ∈ g.graph.greedyOrder :=
      hp.mem_iff.mpr (List.mem_range.mpr (hg.inRange _ hab).2)
    have hpre := (Graph.precedes_greedyOrder (g := g.graph) hab hb).map (g.nodes.getD · 0)
    simpa [hx, hy] using hpre

theorem order_eq_error {g : ClassGraph} (hg : g.WellFormed) (s : ClassStore)
    (hc : Cyclic g.Edge) : ∃ cycle, g.order s = .error (.cyclicDependency cycle) := by
  unfold order
  rw [if_neg fun hlen => (length_greedyOrder_iff hg).mp hlen hc]
  unfold checkAcyclic
  cases g.graph.cycle? with
  | none => exact ⟨_, rfl⟩
  | some path => exact ⟨_, rfl⟩

/-- The order is there exactly when no recorded edges form a cycle. Then it has every added class
once, and every recorded edge leads from an earlier to a later place. -/
theorem order_ofCalls (calls : List Call) (s : ClassStore) :
    (¬ Cyclic (Recorded calls) → ∃ l, (ofCalls calls).order s = .ok l ∧ l.Nodup ∧
      (∀ c, c ∈ l ↔ .node c ∈ calls) ∧ ∀ x y, Recorded calls x y → Precedes l x y) ∧
    (Cyclic (Recorded calls) →
      ∃ cycle, (ofCalls calls).order s = .error (.cyclicDependency cycle)) := by
  have hg := wellFormed_ofCalls calls
  have hedge : (ofCalls calls).Edge = Recorded calls := by
    funext x y
    exact propext edge_ofCalls
  rw [← hedge]
  refine ⟨fun hc => ?_, order_eq_error hg s⟩
  obtain ⟨l, hl, hp, hpre⟩ := order_eq_ok hg s hc
  exact ⟨l, hl, hp.nodup_iff.mpr hg.nodup, fun c => hp.mem_iff.trans mem_nodes_ofCalls, hpre⟩

end BindingModel.Api.ClassGraph
