import BindingModel.Proofs.Graph.ClassGraph
import Mathlib.Data.List.Chain
import Mathlib.Data.List.TakeWhile

/-! A walk that goes back to where it has been reports the way from there to there, and a walk that
does not has finished: every way on from a node that it left ends. -/
namespace BindingModel

/-- Different nodes, `a` and then those of `rest`, with an edge from each to the next and from the
last of them back to `a`. -/
structure ClosedPath {α : Type} (r : α → α → Prop) (a : α) (rest : List α) : Prop where
  nodup : (a :: rest).Nodup
  chain : (a :: (rest ++ [a])).IsChain r

namespace ClosedPath
variable {α β : Type} {r : α → α → Prop} {a : α} {rest : List α}

/-- Without loops at least two nodes are on it. -/
theorem ne_nil (h : ClosedPath r a rest) (hloop : ¬ r a a) : rest ≠ [] := by
  rintro rfl
  have hchain := h.chain
  simp only [List.nil_append, List.isChain_pair] at hchain
  exact hloop hchain

theorem transGen (h : ClosedPath r a rest) {x : α} (hx : x ∈ a :: rest) :
    Relation.TransGen r a x := by
  have hpath : (a :: (rest ++ [a])).IsChain (Relation.TransGen r) :=
    h.chain.imp fun _ _ hab => .single hab
  have hpairwise := List.isChain_iff_pairwise.mp hpath
  apply (List.pairwise_cons.mp hpairwise).1 x
  simpa [or_comm] using hx

theorem cyclic (h : ClosedPath r a rest) : Cyclic r := ⟨a, h.transGen List.mem_cons_self⟩

theorem map {p : β → β → Prop} (h : ClosedPath r a rest) (f : α → β)
    (hf : ∀ x ∈ a :: rest, ∀ y ∈ a :: rest, f x = f y → x = y)
    (hr : ∀ x y, r x y → p (f x) (f y)) : ClosedPath p (f a) (rest.map f) := by
  constructor
  · rw [← List.map_cons]
    exact h.nodup.map_on hf
  · have hchain : ((a :: (rest ++ [a])).map f).IsChain p :=
      (List.isChain_map f).mpr (h.chain.imp hr)
    simpa using hchain

end ClosedPath

/-- Where every way on ends, none comes back. -/
theorem not_transGen_of_acc {α : Type} {r : α → α → Prop} {a : α}
    (h : Acc (fun b a => r a b) a) : ¬ Relation.TransGen r a a := by
  rw [← Relation.transGen_swap]
  have hacc : Acc (Relation.TransGen (Function.swap r)) a := h.transGen
  induction hacc with
  | intro a _ ih => exact fun ha => ih a ha (h.inv_of_transGen ha) ha

/-- What some steps give is as it should be, and so is the error with which they fail. -/
def Ends {ε β : Type} (fails : ε → Prop) (holds : β → Prop) : Except ε β → Prop
  | .ok b => holds b
  | .error e => fails e

namespace Ends
variable {α β ε : Type} {fails : ε → Prop}

theorem imp {holds holds' : β → Prop} {x : Except ε β} (h : Ends fails holds x)
    (himp : ∀ b, holds b → holds' b) : Ends fails holds' x := by
  cases x with
  | error e => exact h
  | ok b => exact himp b h

theorem bind {holds : β → Prop} {holds' : α → Prop} {x : Except ε β} {f : β → Except ε α}
    (h : Ends fails holds x) (hf : ∀ b, holds b → Ends fails holds' (f b)) :
    Ends fails holds' (x >>= f) := by
  cases x with
  | error e => exact h
  | ok b => exact hf b h

/-- The invariant of a loop may speak of the items that it has dealt with. -/
theorem foldlM {holds : List α → β → Prop} {f : β → α → Except ε β} {l : List α} {b : β}
    (hb : holds [] b) (hstep : ∀ before a b, a ∈ l → holds before b →
      Ends fails (holds (before ++ [a])) (f b a)) :
    Ends fails (holds l) (l.foldlM f b) := by
  induction l using List.reverseRecOn with
  | nil => exact hb
  | append_singleton l a ih =>
    rw [List.foldlM_append]
    refine (ih fun before x c hx => hstep before x c (List.mem_append_left [a] hx)).bind ?_
    intro c hc
    rw [List.foldlM_cons]
    exact (hstep l a c (by simp) hc).bind fun d hd => hd

end Ends

namespace Graph

/-- Different nodes with an edge from each to the next. -/
structure Path (g : Graph) (path : List Nat) : Prop where
  nodup : path.Nodup
  chain : path.IsChain g.Edge
  inRange : ∀ a ∈ path, a < g.size

/-- Every way on from what was visited and is no longer on the path comes to an end. -/
def Finished (g : Graph) (path visited : List Nat) : Prop :=
  ∀ a ∈ visited, a ∉ path → Acc (fun b a => g.Edge a b) a

/-- The error of a walk is a closed path, written with its start at both ends. -/
def Closes (g : Graph) (cycle : List Nat) : Prop :=
  ∃ a rest, cycle = a :: (rest ++ [a]) ∧ ClosedPath g.Edge a rest

variable {g : Graph}

theorem Path.length_le {path : List Nat} (h : g.Path path) : path.length ≤ g.size := by
  have hsub : path.Subperm (List.range g.size) :=
    List.subperm_of_subset h.nodup fun a ha => List.mem_range.mpr (h.inRange a ha)
  simpa using hsub.length_le

theorem Path.snoc (hg : g.WellFormed) {path : List Nat} {i j : Nat} (h : g.Path (path ++ [i]))
    (hij : g.Edge i j) (hj : j ∉ path ++ [i]) : g.Path (path ++ [i] ++ [j]) := by
  constructor
  · exact List.nodup_append.mpr ⟨h.nodup, by simp, fun a ha b hb => by
      rw [List.mem_singleton.mp hb]
      rintro rfl
      exact hj ha⟩
  · refine List.isChain_append.mpr ⟨h.chain, .singleton j, fun a ha b hb => ?_⟩
    obtain rfl : i = a := by simpa using ha
    obtain rfl : j = b := by simpa using hb
    exact hij
  · intro a ha
    rcases List.mem_append.mp ha with ha | ha
    · exact h.inRange a ha
    · rw [List.mem_singleton.mp ha]
      exact (hg _ hij).2

/-- An edge from the end of a path back to one of its nodes closes the path from there on. -/
theorem Path.closes {path : List Nat} {i j : Nat} (h : g.Path (path ++ [i])) (hij : g.Edge i j)
    (hj : j ∈ path ++ [i]) : g.Closes ((path ++ [i]).dropWhile (· ≠ j) ++ [j]) := by
  obtain ⟨rest, hdrop⟩ : ∃ rest, (path ++ [i]).dropWhile (· ≠ j) = j :: rest := by
    have hne : (path ++ [i]).dropWhile (· ≠ j) ≠ [] := fun hnil =>
      absurd (List.dropWhile_eq_nil_iff.mp hnil j hj) (by simp)
    obtain ⟨a, rest, hcons⟩ := List.exists_cons_of_ne_nil hne
    have hhead := List.head_dropWhile_not (· ≠ j) hne
    simp only [hcons, List.head_cons, decide_eq_false_iff_not, not_not] at hhead
    exact ⟨rest, hhead ▸ hcons⟩
  have hsuffix : j :: rest <:+ path ++ [i] := hdrop ▸ List.dropWhile_suffix _
  refine ⟨j, rest, by rw [hdrop]; rfl, h.nodup.sublist hsuffix.sublist, ?_⟩
  have hchain : (j :: rest).IsChain g.Edge := h.chain.suffix hsuffix
  show ((j :: rest) ++ [j]).IsChain g.Edge
  refine List.isChain_append.mpr ⟨hchain, .singleton j, fun a ha b hb => ?_⟩
  have hlast : (j :: rest).getLast? = some i := by
    obtain ⟨before, hsplit⟩ := hsuffix
    have hends := congrArg List.getLast? hsplit
    rwa [List.getLast?_append_cons, List.getLast?_concat] at hends
  obtain rfl : i = a := by simpa [hlast] using ha
  obtain rfl : j = b := by simpa using hb
  exact hij

/-- What a walk over `path` does about an edge to `j`. -/
def follow (g : Graph) (n : Nat) (path visited : List Nat) (j : Nat) :
    Except (List Nat) (List Nat) :=
  if j ∈ path then .error (path.dropWhile (· ≠ j) ++ [j])
  else if j ∈ visited then .ok visited
  else g.walk n path visited j

theorem walk_succ (g : Graph) (n : Nat) (path visited : List Nat) (i : Nat) :
    g.walk (n + 1) path visited i =
      (g.successors i).foldlM (g.follow n (path ++ [i])) (i :: visited) :=
  rfl

/-- Now `j` was visited too, and what was left of the path before is finished with it. -/
structure Visits (g : Graph) (path visited : List Nat) (j : Nat) (now : List Nat) : Prop where
  subset : visited ⊆ now
  mem : j ∈ now
  finished : g.Finished path now

theorem ends_follow (hg : g.WellFormed) {n : Nat} {path visited : List Nat} {i j : Nat}
    (hpath : g.Path (path ++ [i])) (hij : g.Edge i j) (hvisited : g.Finished (path ++ [i]) visited)
    (hwalk : g.Path (path ++ [i] ++ [j]) →
      Ends g.Closes (g.Visits (path ++ [i]) visited j) (g.walk n (path ++ [i]) visited j)) :
    Ends g.Closes (fun now => g.Visits (path ++ [i]) visited j now ∧ j ∉ path ++ [i])
      (g.follow n (path ++ [i]) visited j) := by
  unfold follow
  split
  · next hj => exact hpath.closes hij hj
  · next hout =>
    split
    · next hj => exact ⟨⟨List.Subset.refl _, hj, hvisited⟩, hout⟩
    · exact (hwalk (hpath.snoc hg hij hout)).imp fun now hnow => ⟨hnow, hout⟩

/-- The edges of `i` to some nodes were followed: the nodes are visited and not on the path. -/
structure Follows (g : Graph) (path visited : List Nat) (i : Nat) (before now : List Nat) :
    Prop where
  subset : i :: visited ⊆ now
  finished : g.Finished (path ++ [i]) now
  followed : ∀ j ∈ before, j ∈ now ∧ j ∉ path ++ [i]

namespace Follows
variable {path visited before now later : List Nat} {i j : Nat}

theorem start (h : g.Finished path visited) : g.Follows path visited i [] (i :: visited) := by
  refine ⟨List.Subset.refl _, fun a ha hout => ?_, by simp⟩
  simp only [List.mem_append, List.mem_singleton, not_or] at hout
  exact h a ((List.mem_cons.mp ha).resolve_left hout.2) hout.1

theorem snoc (h : g.Follows path visited i before now) (hlater : g.Visits (path ++ [i]) now j later)
    (hout : j ∉ path ++ [i]) : g.Follows path visited i (before ++ [j]) later := by
  refine ⟨fun a ha => hlater.subset (h.subset ha), hlater.finished, fun k hk => ?_⟩
  rcases List.mem_append.mp hk with hk | hk
  · exact ⟨hlater.subset (h.followed k hk).1, (h.followed k hk).2⟩
  · rw [List.mem_singleton.mp hk]
    exact ⟨hlater.mem, hout⟩

/-- A node is finished when all that its edges lead to is. -/
theorem visits (hg : g.WellFormed) (h : g.Follows path visited i (g.successors i) now) :
    g.Visits path visited i now := by
  refine ⟨fun a ha => h.subset (List.mem_cons_of_mem i ha), h.subset List.mem_cons_self, ?_⟩
  intro a ha hout
  by_cases hai : a = i
  · subst hai
    constructor
    intro j haj
    obtain ⟨hj, hjout⟩ := h.followed j ((mem_successors hg).mpr haj)
    exact h.finished j hj hjout
  · exact h.finished a ha (by simp [hout, hai])

end Follows

/-- A walk is never short of steps: each takes one more node onto a path of different nodes. -/
theorem ends_walk (hg : g.WellFormed) (n : Nat) {path visited : List Nat} {i : Nat}
    (hpath : g.Path (path ++ [i])) (hn : g.size ≤ path.length + n)
    (hvisited : g.Finished path visited) :
    Ends g.Closes (g.Visits path visited i) (g.walk n path visited i) := by
  induction n generalizing path visited i with
  | zero =>
    have hlen := hpath.length_le
    simp only [List.length_append, List.length_singleton] at hlen
    omega
  | succ n ih =>
    have hlen : g.size ≤ (path ++ [i]).length + n := by
      simp only [List.length_append, List.length_singleton]
      omega
    have hfold : Ends g.Closes (g.Follows path visited i (g.successors i))
        ((g.successors i).foldlM (g.follow n (path ++ [i])) (i :: visited)) := by
      apply Ends.foldlM (Follows.start hvisited)
      intro before j now hj hnow
      have hij : g.Edge i j := (mem_successors hg).mp hj
      have hfollow := ends_follow hg hpath hij hnow.finished fun hsnoc =>
        ih hsnoc hlen hnow.finished
      exact hfollow.imp fun later hlater => hnow.snoc hlater.1 hlater.2
    rw [walk_succ]
    exact hfold.imp fun now hnow => hnow.visits hg

/-- Some nodes were visited, and with no path left everything is finished. -/
structure Walked (g : Graph) (before now : List Nat) : Prop where
  subset : before ⊆ now
  finished : g.Finished [] now

/-- Where the walks from all nodes come to an end, no edges form a cycle. -/
theorem Walked.not_cyclic (hg : g.WellFormed) {now : List Nat}
    (h : g.Walked (List.range g.size) now) : ¬ Cyclic g.Edge := by
  intro hcyclic
  obtain ⟨a, ha⟩ := hcyclic
  obtain ⟨b, hab, -⟩ := Relation.TransGen.head'_iff.mp ha
  have hvisited : a ∈ now := h.subset (List.mem_range.mpr (hg _ hab).1)
  exact not_transGen_of_acc (h.finished a hvisited List.not_mem_nil) ha

theorem ends_walkAll (hg : g.WellFormed) :
    Ends g.Closes (g.Walked (List.range g.size)) g.walkAll := by
  have hstart : g.Walked [] [] :=
    ⟨List.nil_subset _, fun a ha => absurd ha List.not_mem_nil⟩
  apply Ends.foldlM hstart
  intro before i now hi hnow
  split
  · next hvisited =>
    exact ⟨List.append_subset.mpr ⟨hnow.subset, by simpa using hvisited⟩, hnow.finished⟩
  · have hpath : g.Path ([] ++ [i]) := ⟨by simp, by simp, by simpa using hi⟩
    refine (ends_walk hg g.size hpath (by simp) hnow.finished).imp fun later hlater => ?_
    have hbefore : before ⊆ later := List.Subset.trans hnow.subset hlater.subset
    exact ⟨List.append_subset.mpr ⟨hbefore, by simpa using hlater.mem⟩, hlater.finished⟩

theorem closes_of_cycle? (hg : g.WellFormed) {cycle : List Nat} (h : g.cycle? = some cycle) :
    g.Closes cycle := by
  have hends := ends_walkAll hg
  unfold cycle? at h
  cases hall : g.walkAll with
  | ok now =>
    rw [hall] at h
    cases h
  | error c =>
    rw [hall] at h hends
    obtain rfl := Option.some.inj h
    exact hends

/-- What only leads to the cycle is not reported. -/
example : Graph.cycle? ⟨3, [(0, 1), (1, 2), (2, 1)]⟩ = some [1, 2, 1] := by decide

/-- A cycle is found exactly where there is one. -/
theorem cycle?_eq_none_iff (hg : g.WellFormed) : g.cycle? = none ↔ ¬ Cyclic g.Edge := by
  constructor
  · intro h
    have hends := ends_walkAll hg
    unfold cycle? at h
    cases hall : g.walkAll with
    | ok now =>
      rw [hall] at hends
      exact Walked.not_cyclic hg hends
    | error c =>
      rw [hall] at h
      cases h
  · intro h
    cases hcycle : g.cycle? with
    | none => rfl
    | some cycle =>
      obtain ⟨a, rest, -, hclosed⟩ := closes_of_cycle? hg hcycle
      exact absurd hclosed.cyclic h

end Graph

/-! ### The cycle of a class graph -/

namespace Api.ClassGraph

/-- A closed path over numbers leads over the classes with those numbers. -/
theorem closedPath_nodes {g : ClassGraph} (hg : g.WellFormed) {a : Nat} {rest : List Nat}
    (h : ClosedPath g.graph.Edge a rest) :
    ClosedPath g.Edge (g.nodes.getD a 0) (rest.map (g.nodes.getD · 0)) := by
  have hrange : ∀ i ∈ a :: rest, i < g.nodes.length := by
    intro i hi
    obtain ⟨j, -, hji⟩ := Relation.TransGen.tail'_iff.mp (h.transGen hi)
    exact (hg.inRange _ hji).2
  refine h.map (g.nodes.getD · 0) (fun i hi j hj hij => ?_) fun i j hij => ?_
  · have hi := hrange i hi
    have hj := hrange j hj
    simp only [List.getD_eq_getElem?_getD, List.getElem?_eq_getElem hi,
      List.getElem?_eq_getElem hj, Option.getD_some] at hij
    exact hg.nodup.getElem_inj_iff.mp hij
  · obtain ⟨hi, hj⟩ := hg.inRange _ hij
    exact ⟨i, j, hij, by simp [List.getElem?_eq_getElem hi], by simp [List.getElem?_eq_getElem hj]⟩

theorem checkAcyclic_eq_ok_iff {g : ClassGraph} (hg : g.WellFormed) (s : ClassStore) :
    g.checkAcyclic s = .ok () ↔ ¬ Cyclic g.Edge := by
  rw [← cyclic_graph_iff hg, ← Graph.cycle?_eq_none_iff hg.inRange]
  unfold checkAcyclic
  cases g.graph.cycle? with
  | none => simp
  | some path => simp

/-- The names along a closed path, joined by arrows. -/
def cycleText (s : ClassStore) (first : ClassId) (rest : List ClassId) : String :=
  Text.joinWith " -> " ((first :: (rest ++ [first])).map fun c => (s.get c).qualifiedName)

theorem checkAcyclic_eq_error {g : ClassGraph} (hg : g.WellFormed) (s : ClassStore)
    (hc : Cyclic g.Edge) : ∃ first rest, ClosedPath g.Edge first rest ∧
      g.checkAcyclic s = .error (.cyclicDependency (cycleText s first rest)) := by
  cases hcycle : g.graph.cycle? with
  | none =>
    have hno := (Graph.cycle?_eq_none_iff hg.inRange).mp hcycle
    exact absurd ((cyclic_graph_iff hg).mpr hc) hno
  | some cycle =>
    obtain ⟨a, rest, rfl, hclosed⟩ := Graph.closes_of_cycle? hg.inRange hcycle
    refine ⟨_, _, closedPath_nodes hg hclosed, ?_⟩
    unfold checkAcyclic
    rw [hcycle]
    simp [cycleText, Function.comp_def]

theorem order_eq_checkAcyclic {g : ClassGraph} (hg : g.WellFormed) (s : ClassStore)
    (hc : Cyclic g.Edge) {e : Error} (h : g.checkAcyclic s = .error e) : g.order s = .error e := by
  unfold order
  rw [if_neg fun hlen => (length_greedyOrder_iff hg).mp hlen hc, h]
  rfl

theorem mem_joinWith {sep : String} {c : Char} (hc : c ∈ sep.toList) (a b : String)
    (l : List String) : c ∈ (Text.joinWith sep (a :: b :: l)).toList := by
  rw [Text.joinWith, String.toList_append, String.toList_append]
  simp [hc]

/-- A text with an arrow in it is not the general one. -/
theorem cycleText_ne (s : ClassStore) (first : ClassId) {rest : List ClassId} (hne : rest ≠ []) :
    cycleText s first rest ≠ "Unable to resolve class order, possible circular dependency" := by
  obtain ⟨second, rest, rfl⟩ := List.exists_cons_of_ne_nil hne
  have harrow : '>' ∈ (cycleText s first (second :: rest)).toList :=
    mem_joinWith (by decide) _ _ _
  intro htext
  rw [htext] at harrow
  exact absurd harrow (by decide)

theorem exists_cycleText {calls : List Call} (s : ClassStore) (hc : Cyclic (Recorded calls)) :
    ∃ first rest, ClosedPath (Recorded calls) first rest ∧ rest ≠ [] ∧
      (ofCalls calls).order s = .error (.cyclicDependency (cycleText s first rest)) ∧
      (ofCalls calls).checkAcyclic s = .error (.cyclicDependency (cycleText s first rest)) := by
  have hg := wellFormed_ofCalls calls
  rw [← edge_eq_recorded] at hc ⊢
  obtain ⟨first, rest, hclosed, hcheck⟩ := checkAcyclic_eq_error hg s hc
  have hloop : ¬ (ofCalls calls).Edge first first := by
    rw [edge_eq_recorded]
    rintro ⟨-, -, -, hne, -⟩
    exact hne rfl
  exact ⟨first, rest, hclosed, hclosed.ne_nil hloop, order_eq_checkAcyclic hg s hc hcheck, hcheck⟩

/-- Recorded edges that form a cycle are reported by the names along one, over at least two
different classes and back to the first. A graph without a cycle passes the check, so there is no
order without a cycle to tell. -/
theorem cycle_reported (calls : List Call) (s : ClassStore) :
    (Cyclic (Recorded calls) → ∃ first rest, ClosedPath (Recorded calls) first rest ∧ rest ≠ [] ∧
      (ofCalls calls).order s = .error (.cyclicDependency (cycleText s first rest)) ∧
      (ofCalls calls).checkAcyclic s = .error (.cyclicDependency (cycleText s first rest))) ∧
    ((ofCalls calls).checkAcyclic s = .ok () ↔ ¬ Cyclic (Recorded calls)) ∧
    (ofCalls calls).order s ≠
      .error (.cyclicDependency "Unable to resolve class order, possible circular dependency") := by
  have hg := wellFormed_ofCalls calls
  refine ⟨exists_cycleText s, edge_eq_recorded calls ▸ checkAcyclic_eq_ok_iff hg s, ?_⟩
  intro hgeneral
  by_cases hc : Cyclic (Recorded calls)
  · obtain ⟨first, rest, -, hne, horder, -⟩ := exists_cycleText s hc
    rw [horder, Except.error.injEq, Error.cyclicDependency.injEq] at hgeneral
    exact cycleText_ne s first hne hgeneral
  · rw [← edge_eq_recorded] at hc
    rw [order_of_acyclic hg s hc] at hgeneral
    cases hgeneral

end Api.ClassGraph
end BindingModel
