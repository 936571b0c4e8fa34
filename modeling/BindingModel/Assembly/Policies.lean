import BindingModel.Assembly.State
import BindingModel.Graph.Search

/-! The policies in force, after inheritance. -/
namespace BindingModel.Assembly
open Api

/-- The class and its bases, nearest first. -/
def ancestry (s : ClassStore) (i : ClassId) : List ClassId :=
  Search.breadthFirst s.bases s.classes.size i

/-- The policies of a class, each from the nearest base that specifies it. -/
def classPolicies (s : ClassStore) (i : ClassId) : Policies :=
  (ancestry s i).foldl (fun p j => p.orElse (((s.get j).entry.rules?.map (·.policies)).getD {})) {}

/-- Settle the policies of a function: its own, else those of its class, else the general ones. -/
def settlePolicies (db : Database) (ofClass : Policies) (f : Function) : Function :=
  f.settle ((f.policies.orElse ofClass).orElse db.policies)

def settleClassPolicies (db : Database) (s : ClassStore) (i : ClassId) : ClassStore :=
  let p := classPolicies s i
  s.modify i fun c => { c with functions := c.functions.map (settlePolicies db p) }

/-- Settle the policies of the functions of some classes and of the global functions. -/
def settlePoliciesAll (classes : List ClassId) (s : State) : State :=
  { s with
    store := classes.foldl (settleClassPolicies s.db) s.store
    globalFunctions := s.globalFunctions.map (settlePolicies s.db {}) }

end BindingModel.Assembly
