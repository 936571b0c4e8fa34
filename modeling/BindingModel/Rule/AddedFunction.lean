import BindingModel.Signature.Reader

/-! Functions that rules add to a class or to the global scope. -/
namespace BindingModel

structure AddedArgument where
  /-- Empty when unnamed. -/
  name : String
  type : TypeExpr
  default? : Option String
  deriving Repr

structure AddedFunction where
  name : String
  args : List AddedArgument
  returnType : TypeExpr
  /-- Protected rather than public. -/
  isProtected : Bool := false
  isConst : Bool
  isStatic : Bool := false
  deriving Repr

/-- A public function with the signature and return type as written. -/
def AddedFunction.make (signature returnType : String) : Except Error AddedFunction := do
  let s ← Signature.parse signature
  let returnType ← TypeExpr.parse returnType
  pure {
    name := s.name
    args := s.params.map fun p => ⟨p.name?.getD "", p.type, p.default?⟩
    returnType
    isConst := s.isConst }

end BindingModel
