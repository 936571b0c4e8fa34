/-! Orders of numbered nodes that honour a set of edges, and cycles that rule them out. -/
namespace BindingModel

/-- Nodes are the numbers below `size`; an edge leads from what comes first to what comes later. -/
structure Graph where
  size : Nat := 0
  edges : List (Nat × Nat) := []
  deriving Repr, Inhabited

namespace Graph

def addEdge (g : Graph) (a b : Nat) : Graph :=
  if (a, b) ∈ g.edges then g else { g with edges := g.edges ++ [(a, b)] }

/-- The nodes that an edge leads to, in ascending order. -/
def successors (g : Graph) (a : Nat) : List Nat :=
  (List.range g.size).filter fun b => (a, b) ∈ g.edges

/-- Take the first of `nodes` that no edge leads to, and go on without it; `n` bounds the steps. -/
def orderFrom : (n : Nat) → (nodes : List Nat) → (edges : List (Nat × Nat)) → List Nat
  | 0, _, _ => []
  | n + 1, nodes, edges =>
    match nodes.find? fun i => edges.all (·.2 ≠ i) with
    | none => []
    | some i => i :: orderFrom n (nodes.erase i) (edges.filter (·.1 ≠ i))

/-- The order that takes the least free node each time. It stops where every node left waits. -/
def greedyOrder (g : Graph) : List Nat := orderFrom g.size (List.range g.size) g.edges

/-- Walk on from `i` over nodes not visited before; `path` leads to `i`. The walk ends with the
nodes visited by now or with the cycle that it closes. -/
def walk (g : Graph) : (n : Nat) → (path visited : List Nat) → Nat → Except (List Nat) (List Nat)
  | 0, _, visited, _ => .ok visited
  | n + 1, path, visited, i =>
    let path := path ++ [i]
    (g.successors i).foldlM (fun visited j =>
      if j ∈ path then .error (path.dropWhile (· ≠ j) ++ [j])
      else if j ∈ visited then .ok visited
      else walk g n path visited j) (i :: visited)

/-- Visit every node. -/
def walkAll (g : Graph) : Except (List Nat) (List Nat) :=
  (List.range g.size).foldlM (fun visited i =>
    if i ∈ visited then .ok visited else g.walk g.size [] visited i) []

/-- A closed path, from a node back to itself. -/
def cycle? (g : Graph) : Option (List Nat) :=
  match g.walkAll with
  | .ok _ => none
  | .error path => some path

end Graph
end BindingModel
