import BindingModel.Proofs.Graph.ClassGraph

/-! Sorted classes stand after the classes that they need: those around them, those they are derived
from, and those whose values their constructors have as defaults. -/
namespace BindingModel.Api.ClassStore

/-- A link leads from `c` to `x`. -/
inductive Link (s : ClassStore) (c x : ClassId) : Prop
  | enclosing (h : s.enclosing? c = some x)
  | base (h : s.base? c = some x)
  | interface (h : x ∈ s.interfaces c)
  | templateBase (h : s.templateBase? c = some x)

/-- A constructor of `c` has a declared default for a value of another class entry, and `x` is the
first class of `all` with that entry. What is declared directly inside `c` does not count. -/
def DefaultsTo (s : ClassStore) (all : List ClassId) (c x : ClassId) : Prop :=
  s.enclosing? x ≠ some c ∧ ∃ f ∈ (s.get c).functions, f.isConstructor = true ∧ ∃ a ∈ f.args,
    a.declaredDefault?.isSome = true ∧ a.type.usage = .value ∧ a.type.entry.isComplex = true ∧
    a.type.entry.same (s.get c).entry = false ∧
    all.find? (fun d => (s.get d).entry.same a.type.entry) = some x

/-- Of two different classes of `all`, `x` has to come before `c`. -/
structure Needs (s : ClassStore) (all : List ClassId) (x c : ClassId) : Prop where
  mem_left : x ∈ all
  mem_right : c ∈ all
  ne : x ≠ c
  cause : s.Link c x ∨ s.DefaultsTo all c x

/-- Links lead from `c` to `x`, over interfaces of `all` only. -/
inductive Reaches (s : ClassStore) (all : List ClassId) (c : ClassId) : ClassId → Prop
  | link {x : ClassId} (h : s.Link c x) : Reaches s all c x
  | through {i x : ClassId} (h : Reaches s all c i) (hi : i ∈ all)
      (hk : (s.get i).isInterface = true) (hx : s.Link i x) : Reaches s all c x

/-- The classes of `all` that are no interfaces, each once and after those that it needs. -/
structure Ordered (s : ClassStore) (all l : List ClassId) : Prop where
  nodup : l.Nodup
  mem_iff : ∀ c, c ∈ l ↔ c ∈ all ∧ (s.get c).isInterface = false
  precedes : ∀ x ∈ l, ∀ c ∈ l, x ≠ c → s.Reaches all c x ∨ s.DefaultsTo all c x → Precedes l x c

variable {s : ClassStore} {all : List ClassId}

theorem link_iff {c x : ClassId} :
    s.Link c x ↔ x ∈ (s.enclosing? c).toList ++ s.bases c ++ (s.templateBase? c).toList := by
  simp only [bases, List.mem_append, Option.mem_toList]
  constructor
  · rintro (h | h | h | h) <;> simp [h]
  · intro h
    rcases h with (h | h | h) | h
    · exact .enclosing h
    · exact .base h
    · exact .interface h
    · exact .templateBase h

theorem mem_defaultDependencies {c x : ClassId} :
    x ∈ s.defaultDependencies all c ↔ s.DefaultsTo all c x := by
  unfold defaultDependencies DefaultsTo BoundClass.constructors
  simp only [List.mem_flatMap, List.mem_filter, List.mem_filterMap]
  constructor
  · intro h
    obtain ⟨f, ⟨hf, hk⟩, a, ha, h⟩ := h
    split at h
    · simp at h
    · next hcond =>
      split at h
      · next d hd =>
        split at h
        · simp at h
        · next hout =>
          obtain rfl := Option.some.inj h
          simp only [Bool.or_eq_true, not_or, Bool.not_eq_true, Option.isNone_eq_false_iff,
            bne_eq_false_iff_eq, Bool.not_eq_false'] at hcond
          exact ⟨hout, f, hf, hk, a, ha, hcond.1.1.1, hcond.1.1.2, hcond.1.2, hcond.2, hd⟩
      · simp at h
  · intro h
    obtain ⟨hout, f, hf, hk, a, ha, hdef, hval, hcls, hown, hd⟩ := h
    refine ⟨f, ⟨hf, hk⟩, a, ha, ?_⟩
    have hnone : a.declaredDefault?.isNone = false := by simpa using hdef
    simp [hnone, hval, hcls, hown, hd, hout]

theorem mem_dependencies {c x : ClassId} :
    x ∈ s.dependencies all c ↔ s.Link c x ∨ s.DefaultsTo all c x := by
  rw [link_iff, ← mem_defaultDependencies]
  unfold dependencies
  rw [List.mem_append]

/-- The calls that build the graph of dependencies: all nodes first. -/
def dependencyCalls (s : ClassStore) (all : List ClassId) : List ClassGraph.Call :=
  all.map .node ++ all.flatMap fun c => (s.dependencies all c).map (.edge · c)

theorem dependencyGraph_eq : s.dependencyGraph all = .ofCalls (s.dependencyCalls all) := by
  simp only [dependencyGraph, ClassGraph.ofCalls, dependencyCalls, List.foldl_append,
    List.foldl_map, List.foldl_flatMap, ClassGraph.perform]

theorem node_mem_dependencyCalls {c : ClassId} :
    .node c ∈ s.dependencyCalls all ↔ c ∈ all := by
  simp [dependencyCalls]

theorem edge_mem_dependencyCalls {x c : ClassId} :
    .edge x c ∈ s.dependencyCalls all ↔ c ∈ all ∧ x ∈ s.dependencies all c := by
  simp [dependencyCalls]

theorem recorded_dependencyCalls {x c : ClassId} :
    ClassGraph.Recorded (s.dependencyCalls all) x c ↔ s.Needs all x c := by
  constructor
  · intro h
    obtain ⟨earlier, later, h, hne, hx, -⟩ := h
    have hedge : .edge x c ∈ s.dependencyCalls all := by rw [h]; simp
    have hnode : .node x ∈ s.dependencyCalls all := by rw [h]; simp [hx]
    obtain ⟨hc, hdep⟩ := edge_mem_dependencyCalls.mp hedge
    exact ⟨node_mem_dependencyCalls.mp hnode, hc, hne, mem_dependencies.mp hdep⟩
  · intro h
    obtain ⟨hx, hc, hne, hcause⟩ := h
    have hedge : .edge x c ∈ all.flatMap fun c =>
        (s.dependencies all c).map (ClassGraph.Call.edge · c) := by
      simpa [hc] using mem_dependencies.mpr hcause
    obtain ⟨before, after, h⟩ := List.append_of_mem hedge
    refine ⟨all.map .node ++ before, after, ?_, hne, by simp [hx], by simp [hc]⟩
    rw [dependencyCalls, h, List.append_assoc]

theorem edge_dependencyGraph : (s.dependencyGraph all).Edge = s.Needs all := by
  funext x c
  rw [dependencyGraph_eq]
  exact propext (ClassGraph.edge_ofCalls.trans recorded_dependencyCalls)

theorem orderClasses_eq_error (hc : Cyclic (s.Needs all)) :
    ∃ cycle, s.orderClasses all = .error (.cyclicDependency cycle) := by
  have hg : (s.dependencyGraph all).WellFormed := by
    rw [dependencyGraph_eq]
    exact ClassGraph.wellFormed_ofCalls _
  exact ClassGraph.order_eq_error hg s (by rwa [edge_dependencyGraph])

theorem orderClasses_eq_ok (hc : ¬ Cyclic (s.Needs all)) :
    ∃ l, s.orderClasses all = .ok l ∧ l.Nodup ∧ (∀ c, c ∈ l ↔ c ∈ all) ∧
      ∀ x c, s.Needs all x c → Precedes l x c := by
  have hg : (s.dependencyGraph all).WellFormed := by
    rw [dependencyGraph_eq]
    exact ClassGraph.wellFormed_ofCalls _
  have hmem : ∀ c, c ∈ (s.dependencyGraph all).nodes ↔ c ∈ all := fun c => by
    rw [dependencyGraph_eq, ClassGraph.mem_nodes_ofCalls, node_mem_dependencyCalls]
  obtain ⟨l, hl, hp, hpre⟩ := ClassGraph.order_eq_ok hg s (by rwa [edge_dependencyGraph])
  rw [edge_dependencyGraph] at hpre
  exact ⟨l, hl, hp.nodup_iff.mpr hg.nodup, fun c => hp.mem_iff.trans (hmem c), hpre⟩

theorem cyclic_of_orderClasses_eq_error {e : Error} (h : s.orderClasses all = .error e) :
    Cyclic (s.Needs all) ∧ ∃ cycle, e = .cyclicDependency cycle := by
  by_cases hc : Cyclic (s.Needs all)
  · obtain ⟨cycle, he⟩ := orderClasses_eq_error hc
    exact ⟨hc, cycle, Except.error.inj (h.symm.trans he)⟩
  · obtain ⟨l, hl, -⟩ := orderClasses_eq_ok hc
    rw [hl] at h
    cases h

theorem nodup_of_orderClasses {l : List ClassId} (h : s.orderClasses all = .ok l) :
    l.Nodup ∧ ∀ c, c ∈ l ↔ c ∈ all := by
  by_cases hc : Cyclic (s.Needs all)
  · obtain ⟨cycle, he⟩ := orderClasses_eq_error hc
    rw [he] at h
    cases h
  · obtain ⟨k, hk, hnodup, hmem, -⟩ := orderClasses_eq_ok hc
    rw [hk] at h
    exact Except.ok.inj h ▸ ⟨hnodup, hmem⟩

/-- A path over interfaces is made of needs; links of a class to itself only shorten it. -/
theorem Reaches.transGen {c x : ClassId} (h : s.Reaches all c x) (hc : c ∈ all) (hx : x ∈ all) :
    x = c ∨ Relation.TransGen (s.Needs all) x c := by
  induction h with
  | @link x h =>
    by_cases hxc : x = c
    · exact .inl hxc
    · exact .inr (.single ⟨hx, hc, hxc, .inl h⟩)
  | @through i x _ hi _ hl ih =>
    by_cases hxi : x = i
    · subst hxi
      exact ih hi
    · have hstep : s.Needs all x i := ⟨hx, hi, hxi, .inl hl⟩
      rcases ih hi with rfl | hpath
      · exact .inr (.single hstep)
      · exact .inr (.head hstep hpath)

/-- Leaving interfaces out of an order of all classes keeps what is reached over them. -/
theorem ordered_filter {l : List ClassId} (hl : l.Nodup) (hmem : ∀ c, c ∈ l ↔ c ∈ all)
    (hpre : ∀ x c, s.Needs all x c → Precedes l x c) :
    s.Ordered all (l.filter fun c => !(s.get c).isInterface) := by
  refine ⟨hl.filter _, fun c => by simp [hmem], fun x hx c hc hne h => ?_⟩
  obtain ⟨hxl, hxk⟩ := List.mem_filter.mp hx
  obtain ⟨hcl, hck⟩ := List.mem_filter.mp hc
  have hxa := (hmem x).mp hxl
  have hca := (hmem c).mp hcl
  have hpath : Relation.TransGen (s.Needs all) x c := by
    rcases h with h | h
    · exact (h.transGen hca hxa).resolve_left hne
    · exact .single ⟨hxa, hca, hne, .inr h⟩
  exact (Precedes.of_transGen hl hpre hpath).filter hxk hck

theorem sortClasses_eq_error (hc : Cyclic (s.Needs all)) :
    ∃ cycle, s.sortClasses all = .error (.cyclicDependency cycle) := by
  obtain ⟨cycle, h⟩ := orderClasses_eq_error hc
  exact ⟨cycle, by rw [sortClasses, h]; rfl⟩

theorem sortClasses_eq_ok (hc : ¬ Cyclic (s.Needs all)) :
    ∃ l, s.sortClasses all = .ok l ∧ s.Ordered all l := by
  obtain ⟨l, h, hl, hmem, hpre⟩ := orderClasses_eq_ok hc
  exact ⟨_, by rw [sortClasses, h]; rfl, ordered_filter hl hmem hpre⟩

theorem sortClasses_eq_error_iff :
    (∃ cycle, s.sortClasses all = .error (.cyclicDependency cycle)) ↔ Cyclic (s.Needs all) := by
  refine ⟨fun ⟨cycle, h⟩ => ?_, sortClasses_eq_error⟩
  by_contra hc
  obtain ⟨l, hl, -⟩ := sortClasses_eq_ok hc
  rw [hl] at h
  cases h

theorem cyclic_of_sortClasses_eq_error {e : Error} (h : s.sortClasses all = .error e) :
    Cyclic (s.Needs all) ∧ ∃ cycle, e = .cyclicDependency cycle := by
  unfold sortClasses at h
  cases horder : s.orderClasses all with
  | error e' =>
    rw [horder] at h
    obtain rfl := Except.error.inj h
    exact cyclic_of_orderClasses_eq_error horder
  | ok l =>
    rw [horder] at h
    cases h

theorem ordered_of_sortClasses {l : List ClassId} (h : s.sortClasses all = .ok l) :
    s.Ordered all l := by
  by_cases hc : Cyclic (s.Needs all)
  · obtain ⟨cycle, he⟩ := sortClasses_eq_error hc
    rw [he] at h
    cases h
  · obtain ⟨k, hk, hord⟩ := sortClasses_eq_ok hc
    rw [hk] at h
    exact Except.ok.inj h ▸ hord

end BindingModel.Api.ClassStore
