import BindingModel.Spelled
import BindingModel.Text.Cut

/-! Type expressions as written in a declaration, and their canonical spelling. -/
namespace BindingModel

inductive RefKind
  | none
  | lvalue
  | rvalue
  deriving DecidableEq, Repr, Inhabited

instance : Spelled RefKind where
  table :=
    [(.none, "NoReference"), (.lvalue, "LValueReference"), (.rvalue, "RValueReference")]

def RefKind.text : RefKind → String
  | none => ""
  | lvalue => "&"
  | rvalue => "&&"

/-- A type expression. The name is that of the return type when `params?` holds the parameter types
of a function pointer. -/
structure TypeExpr where
  name : List String
  isConst : Bool := false
  isVolatile : Bool := false
  /-- The number of `*`. -/
  pointers : Nat := 0
  ref : RefKind := .none
  /-- Array dimensions as written, outermost first; an unbound one is empty. -/
  dims : List String := []
  /-- Template arguments. -/
  args : List TypeExpr := []
  params? : Option (List TypeExpr) := none
  deriving Inhabited, Repr

namespace TypeExpr

/-- The unqualified use of a `::` separated name. -/
def ofName (name : String) : TypeExpr where
  name := Text.segments name

def qualifiedName (t : TypeExpr) : String := Text.qualified t.name

def localName (t : TypeExpr) : String := t.name.getLastD ""

def isFunctionPointer (t : TypeExpr) : Bool := t.params?.isSome

def params (t : TypeExpr) : List TypeExpr := t.params?.getD []

def isArray (t : TypeExpr) : Bool := !t.dims.isEmpty

/-- Plain `void`, not `void*`. -/
def isVoid (t : TypeExpr) : Bool :=
  t.name == ["void"] && t.pointers == 0 && t.ref == .none && !t.isFunctionPointer && !t.isArray

/-- One `*` for each indirection. -/
def stars (n : Nat) : String := .ofList (List.replicate n '*')

def dimsText (dims : List String) : String := String.join (dims.map fun d => "[" ++ d ++ "]")

def cvText (isConst isVolatile : Bool) : String :=
  (if isConst then "const " else "") ++ (if isVolatile then "volatile " else "")

mutual

/-- The canonical spelling. -/
def text : TypeExpr → String
  | ⟨name, c, v, p, r, dims, args, params?⟩ =>
    cvText c v ++ Text.qualified name ++ argsText args ++ paramsText params? ++ stars p ++ r.text ++
      dimsText dims

def argsText : List TypeExpr → String
  | [] => ""
  | t :: ts => "<" ++ t.text ++ restText ts ++ ">"

def paramsText : Option (List TypeExpr) → String
  | none => ""
  | some [] => " (*)()"
  | some (t :: ts) => " (*)(" ++ t.text ++ restText ts ++ ")"

def restText : List TypeExpr → String
  | [] => ""
  | t :: ts => ", " ++ t.text ++ restText ts

end

/-- The name with its template arguments. -/
def instanceName (t : TypeExpr) : String := t.qualifiedName ++ argsText t.args

/-- Put the qualifiers of a use site on an aliased type. -/
def combine (target use : TypeExpr) : TypeExpr where
  name := target.name
  isConst := target.isConst || use.isConst
  isVolatile := target.isVolatile || use.isVolatile
  pointers := target.pointers + use.pointers
  ref := if use.ref = .none then target.ref else use.ref
  dims := target.dims ++ use.dims
  args := target.args
  params? := target.params?

mutual

def decEq : (a b : TypeExpr) → Decidable (a = b)
  | ⟨n, c, v, p, r, d, as, ps⟩, ⟨n', c', v', p', r', d', as', ps'⟩ =>
    if h : n = n' ∧ c = c' ∧ v = v' ∧ p = p' ∧ r = r' ∧ d = d' then
      match decEqList as as', decEqOption ps ps' with
      | isTrue ha, isTrue hp => isTrue (by simp [h, ha, hp])
      | isFalse ha, _ => isFalse (by simp [ha])
      | _, isFalse hp => isFalse (by simp [hp])
    else isFalse (by rintro ⟨⟩; simp at h)

def decEqList : (as bs : List TypeExpr) → Decidable (as = bs)
  | [], [] => isTrue rfl
  | [], _ :: _ => isFalse (by simp)
  | _ :: _, [] => isFalse (by simp)
  | a :: as, b :: bs =>
    match decEq a b, decEqList as bs with
    | isTrue h, isTrue hs => isTrue (by simp [h, hs])
    | isFalse h, _ => isFalse (by simp [h])
    | _, isFalse hs => isFalse (by simp [hs])

def decEqOption : (as bs : Option (List TypeExpr)) → Decidable (as = bs)
  | none, none => isTrue rfl
  | none, some _ => isFalse (by simp)
  | some _, none => isFalse (by simp)
  | some as, some bs =>
    match decEqList as bs with
    | isTrue h => isTrue (by simp [h])
    | isFalse h => isFalse (by simp [h])

end

instance : DecidableEq TypeExpr := decEq

end TypeExpr
end BindingModel
