import BindingModel.Api.ClassStore
import BindingModel.Catalog

/-! Registered classes under numbers, with an index by qualified name. It answers as the registry
does that goes through all classes. -/
namespace BindingModel.Api

structure IndexedRegistry where
  classes : Catalog ClassId := {}

namespace IndexedRegistry

/-- The class is registered: it is among those of its name. -/
def contains (r : IndexedRegistry) (s : ClassStore) (i : ClassId) : Bool :=
  r.classes.holds (s.get i).qualifiedName (· == i)

/-- Register a class once. -/
def insert (r : IndexedRegistry) (s : ClassStore) (i : ClassId) : IndexedRegistry :=
  if r.contains s i then r else { classes := r.classes.add (s.get i).qualifiedName i }

/-- Remove a class, and tell whether it was registered. -/
def remove (r : IndexedRegistry) (s : ClassStore) (i : ClassId) : Bool × IndexedRegistry :=
  let (found, classes) := r.classes.remove (s.get i).qualifiedName (· == i)
  (found, { classes })

/-- The first class of a name. -/
def findByName? (r : IndexedRegistry) (name : String) : Option ClassId :=
  r.classes.find? name fun _ => true

/-- The first class of an entry, looked for under the name of the entry. -/
def classOf? (r : IndexedRegistry) (s : ClassStore) (e : Entry) : Option ClassId :=
  r.classes.find? e.name fun i => (s.get i).entry.same e

def all (r : IndexedRegistry) : List ClassId := r.classes.values

end IndexedRegistry
end BindingModel.Api
