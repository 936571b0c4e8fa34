/-! Values kept under ascending numbers, with an index of the numbers by name. -/
namespace BindingModel

/-- Values by number. Numbers have 32 bits and begin again at zero behind the last one. -/
structure Catalog (α : Type) where
  /-- In the order of the numbers. -/
  items : List (UInt32 × α) := []
  /-- The number of the next value. -/
  next : UInt32 := 0
  /-- The numbers that were given under each name. A name stays when its numbers are struck. -/
  index : List (String × List UInt32) := []

namespace Catalog
variable {α : Type}

/-- Keep a value under a number, in place of the one that was there. -/
def put (n : UInt32) (a : α) : List (UInt32 × α) → List (UInt32 × α)
  | [] => [(n, a)]
  | (m, b) :: items =>
    if n < m then (n, a) :: (m, b) :: items
    else if n = m then (n, a) :: items
    else (m, b) :: put n a items

/-- Add a number to those of a name. -/
def enter (name : String) (n : UInt32) : List (String × List UInt32) → List (String × List UInt32)
  | [] => [(name, [n])]
  | (s, ns) :: index =>
    if s = name then (s, ns ++ [n]) :: index else (s, ns) :: enter name n index

/-- Take a number from those of a name. -/
def strike (name : String) (n : UInt32) : List (String × List UInt32) → List (String × List UInt32)
  | [] => []
  | (s, ns) :: index =>
    if s = name then (s, ns.filter (· ≠ n)) :: index else (s, ns) :: strike name n index

/-- Keep a value under the next number and a name. -/
def add (c : Catalog α) (name : String) (a : α) : Catalog α where
  items := put c.next a c.items
  next := c.next + 1
  index := enter name c.next c.index

/-- Take out the first value of a kind, which is found without the index, and its number from those
of a name. -/
def remove (c : Catalog α) (name : String) (p : α → Bool) : Bool × Catalog α :=
  match c.items.find? (p ·.2) with
  | none => (false, c)
  | some (n, _) =>
    (true, { c with items := c.items.filter (·.1 ≠ n), index := strike name n c.index })

/-- All values, in the order of their numbers. -/
def values (c : Catalog α) : List α := c.items.map (·.2)

/-- Every name that was ever used, in no particular order. -/
def names (c : Catalog α) : List String := c.index.map (·.1)

def get? (c : Catalog α) (n : UInt32) : Option α := c.items.lookup n

def numbers (c : Catalog α) (name : String) : List UInt32 := (c.index.lookup name).getD []

/-- The values under a name. -/
def named (c : Catalog α) (name : String) : List α := (c.numbers name).filterMap c.get?

/-- The first value of a kind under a name. -/
def find? (c : Catalog α) (name : String) (p : α → Bool) : Option α :=
  (c.numbers name).findSome? fun n => (c.get? n).filter p

/-- Some value of a kind is kept under a name. -/
def holds (c : Catalog α) (name : String) (p : α → Bool) : Bool :=
  (c.numbers name).any fun n => (c.get? n).any p

end Catalog
end BindingModel
