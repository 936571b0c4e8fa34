import BindingModel.Api.BoundType

/-! Replacing the placeholders of a template by the arguments of an instance. -/
namespace BindingModel.Api

/-- Why a type has no instance. -/
inductive Uninstantiable
  /-- Too few arguments. -/
  | missing
  | void
  /-- The type reached at the deepest level. -/
  | tooDeep (t : BoundType)

namespace BoundType

/-- Put an argument in place of the placeholder: indirections add up, qualifiers stay. -/
def replacePlaceholder (t arg : BoundType) : BoundType :=
  decided { t with
    entry := arg.entry
    pointers := t.pointers + arg.pointers
    args := arg.args
    template? := some t }

/-- Replace the placeholders in a type with `n` levels left. What stands for a placeholder is
searched for placeholders again. The elements of arrays stay as they are. -/
def instantiateAt (bindings : List BoundType) :
    (n : Nat) → BoundType → Except Uninstantiable BoundType
  | 0, t => .error (.tooDeep t)
  | n + 1, t =>
    match t.entry.ordinal? with
    | some i =>
      match bindings[i]? with
      | none => .error .missing
      | some arg =>
        if arg.entry.isKind .void then .error .void
        else instantiateAt bindings n (t.replacePlaceholder arg)
    | none =>
      if t.args.isEmpty then .ok t
      else do
        let args ← t.args.mapM (instantiateAt bindings n)
        pure { t with args, template? := some t }

/-- The instance of a type, of at most `maxDepth` levels. -/
def instantiate (bindings : List BoundType) (maxDepth : Nat) (t : BoundType) :
    Except Uninstantiable BoundType :=
  instantiateAt bindings (maxDepth + 1) t

end BoundType
end BindingModel.Api
