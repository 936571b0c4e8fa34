import BindingModel.Catalog
import BindingModel.Rule.Database

/-! Registered entries under numbers, with an index by name and one of the flags by alias. It
answers as the rule database does that goes through all entries. -/
namespace BindingModel

structure IndexedDatabase where
  /-- All entries but typedefs. The number zero is not given to the first of them. -/
  catalog : Catalog Entry := { next := 1 }
  typedefs : List Entry := []
  /-- Flags by alias, those registered last first. -/
  aliases : List (String × Entry) := []

namespace IndexedDatabase

/-- Register an entry once: a typedef if it is not among all typedefs, any other entry if it is not
among those of its name. -/
def register (db : IndexedDatabase) (e : Entry) : IndexedDatabase :=
  match e with
  | ⟨id?, name, .typedef source target⟩ =>
    let e : Entry := ⟨id?, name, .typedef source target⟩
    if db.typedefs.any (·.same e) then db
    else register { db with typedefs := db.typedefs ++ [e] } target
  | e =>
    if db.catalog.holds e.name (·.same e) then db
    else
      { db with
        catalog := db.catalog.add e.name e
        aliases := (e.flagsAlias?.map fun a => (a, e)).toList ++ db.aliases }

def entries (db : IndexedDatabase) : List Entry := db.catalog.values

def named (db : IndexedDatabase) (name : String) : List Entry := db.catalog.named name

/-- Flags by name, or else by alias. -/
def findFlags? (db : IndexedDatabase) (name : String) : Option Entry :=
  match ((db.named name).find? (!·.isKind .function)).filter (·.isKind .flags) with
  | some e => some e
  | none => db.aliases.lookup name

/-- The names of the index that end in `::` and `name`, sorted. -/
def candidates (db : IndexedDatabase) (name : String) : List String :=
  (db.catalog.names.filter fun n => (':' :: ':' :: name.toList).isSuffixOf n.toList).mergeSort

end IndexedDatabase
end BindingModel
