import BindingModel.Spelled

/-! Finite sets of flags. -/
namespace BindingModel

/-- A set of flags, kept as the list of its members. -/
structure FlagSet (α : Type) where
  members : List α := []
  deriving Repr, Inhabited

namespace FlagSet
variable {α : Type} [DecidableEq α]

instance : Membership α (FlagSet α) := ⟨fun s a => a ∈ s.members⟩

instance (a : α) (s : FlagSet α) : Decidable (a ∈ s) := inferInstanceAs (Decidable (a ∈ s.members))

/-- Test membership. -/
def has (s : FlagSet α) (a : α) : Bool := s.members.contains a

def insert (s : FlagSet α) (a : α) : FlagSet α := if s.has a then s else ⟨s.members ++ [a]⟩

def erase (s : FlagSet α) (a : α) : FlagSet α := ⟨s.members.filter (· ≠ a)⟩

def insertAll (s : FlagSet α) (as : List α) : FlagSet α := as.foldl insert s

def eraseAll (s : FlagSet α) (as : List α) : FlagSet α := as.foldl erase s

/-- Test membership of all of the flags. -/
def hasAll (s : FlagSet α) (as : List α) : Bool := as.all s.has

def ofList (as : List α) : FlagSet α := insertAll {} as

/-- Add a flag when the condition holds. -/
def insertIf (s : FlagSet α) (c : Bool) (a : α) : FlagSet α := if c then s.insert a else s

/-- The members in the order of all flags. -/
def toList [Spelled α] (s : FlagSet α) : List α := (Spelled.members α).filter s.has

end FlagSet
end BindingModel
