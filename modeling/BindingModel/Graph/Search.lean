/-! What is reached by steps from some start, level by level. -/
namespace BindingModel.Search
variable {α : Type} [BEq α]

/-- What is reached from `frontier` by at most `n` steps, after what is in `reached`. A step leads
from some things to all that are next to one of them. -/
def closure (step : List α → List α) : (n : Nat) → (frontier reached : List α) → List α
  | 0, _, reached => reached
  | n + 1, frontier, reached =>
    let new := (step frontier).filter (!reached.contains ·)
    if new.isEmpty then reached else closure step n new (reached ++ new)

/-- The start and what is at most `n` steps away from it, nearest first. -/
def breadthFirst (step : α → List α) (n : Nat) (start : α) : List α :=
  closure (fun l => (l.flatMap step).eraseDups) n [start] [start]

end BindingModel.Search
