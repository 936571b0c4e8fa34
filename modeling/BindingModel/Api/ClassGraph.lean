import BindingModel.Api.ClassStore
import BindingModel.Graph.Order

/-! Ordering classes by their dependencies. -/
namespace BindingModel.Api

/-- Classes as nodes, numbered as they were added, and which must come before which. -/
structure ClassGraph where
  nodes : List ClassId := []
  edges : List (Nat × Nat) := []
  deriving Repr, Inhabited

namespace ClassGraph

def graph (g : ClassGraph) : Graph := ⟨g.nodes.length, g.edges⟩

/-- Add a class once. -/
def addNode (g : ClassGraph) (c : ClassId) : ClassGraph :=
  if c ∈ g.nodes then g else { g with nodes := g.nodes ++ [c] }

def addEdge? (g : ClassGraph) (before after : ClassId) : Option ClassGraph :=
  match g.nodes.idxOf? before, g.nodes.idxOf? after with
  | some a, some b =>
    if a = b then none else some { g with edges := (g.graph.addEdge a b).edges }
  | _, _ => none

/-- Add an edge between two different classes of the graph. -/
def addEdge (g : ClassGraph) (before after : ClassId) : ClassGraph :=
  (g.addEdge? before after).getD g

/-- Fails with the names along a cycle, if there is one. -/
def checkAcyclic (g : ClassGraph) (s : ClassStore) : Except Error Unit :=
  match g.graph.cycle? with
  | none => .ok ()
  | some path =>
    .error (.cyclicDependency
      (Text.joinWith " -> " (path.map fun i => (s.get (g.nodes.getD i 0)).qualifiedName)))

/-- The classes in an order that honours the edges, earlier added ones first where they may. -/
def order (g : ClassGraph) (s : ClassStore) : Except Error (List ClassId) := do
  let order := g.graph.greedyOrder
  if order.length = g.nodes.length then pure (order.map (g.nodes.getD · 0))
  else do
    g.checkAcyclic s
    .error (.cyclicDependency "Unable to resolve class order, possible circular dependency")

end ClassGraph

/-- Classes that a constructor of `c` needs for the value of a default. -/
def ClassStore.defaultDependencies (s : ClassStore) (all : List ClassId) (c : ClassId) :
    List ClassId :=
  (s.get c).constructors.flatMap fun f => f.args.filterMap fun a =>
    let entry := a.type.entry
    if a.declaredDefault?.isNone || a.type.usage != .value || !entry.isComplex ||
      entry.same (s.get c).entry then none
    else
      match all.find? fun d => (s.get d).entry.same entry with
      | some d => if s.enclosing? d = some c then none else some d
      | none => none

/-- Classes that must come before `c`. -/
def ClassStore.dependencies (s : ClassStore) (all : List ClassId) (c : ClassId) : List ClassId :=
  (s.enclosing? c).toList ++ s.bases c ++ (s.templateBase? c).toList ++ s.defaultDependencies all c

/-- The dependencies among some classes. -/
def ClassStore.dependencyGraph (s : ClassStore) (all : List ClassId) : ClassGraph :=
  all.foldl (fun g c => (s.dependencies all c).foldl (·.addEdge · c) g)
    (all.foldl ClassGraph.addNode {})

/-- All classes, each after those it depends on. -/
def ClassStore.orderClasses (s : ClassStore) (all : List ClassId) : Except Error (List ClassId) :=
  (s.dependencyGraph all).order s

/-- The classes that are not interfaces, each after those it depends on. -/
def ClassStore.sortClasses (s : ClassStore) (all : List ClassId) : Except Error (List ClassId) := do
  pure ((← s.orderClasses all).filter fun c => !(s.get c).isInterface)

end BindingModel.Api
