/-! Enumerations whose members have written names. -/
namespace BindingModel

class Spelled (α : Type) where
  /-- Every member with its name. -/
  table : List (α × String)

namespace Spelled
variable {α : Type} [Spelled α]

/-- Every member in order. -/
def members (α : Type) [Spelled α] : List α := (table : List (α × String)).map (·.1)

/-- The name of a member. -/
def text [DecidableEq α] (a : α) : String := (table.lookup a).getD ""

/-- The member of that name. -/
def ofText? (name : String) : Option α := (table.find? (·.2 == name)).map (·.1)

end Spelled
end BindingModel
