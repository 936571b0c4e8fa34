import BindingModel.Assembly.State
import BindingModel.Graph.Search

/-! Making and copying instances: implicit constructors and clonable classes. -/
namespace BindingModel.Assembly
open Api

/-- Instances can be made from outside. -/
def isConstructible (c : BoundClass) : Bool :=
  (c.has .hasNonPrivateConstructor || !c.has .hasPrivateConstructor) && !c.has .hasPrivateDestructor

/-- The class is one that gets the constructors that a compiler would declare. -/
def takesImplicit (c : BoundClass) : Bool :=
  isConstructible c && !c.isInterface && !c.isNamespace && !c.has .hasRejectedConstructor

def implicitAttrs : FlagSet FunctionAttr := .ofList [.finalInTargetLang, .implicit]

def implicitConstructor (i : ClassId) (c : BoundClass) : Function :=
  Function.setOwner { Function.make c.name .constructor with attrs := implicitAttrs } i

def implicitCopy (i : ClassId) (c : BoundClass) (isPrivate : Bool) : Function :=
  let type : BoundType := { entry := c.entry, isConst := true, ref := .lvalue }
  Function.setOwner { Function.make c.name .copyConstructor with
    attrs := implicitAttrs
    visibility := if isPrivate then .priv else .pub
    args := [.make "other" type.decided 0] } i

/-- The class, its bases and template bases, and theirs. -/
def copiedWith (s : ClassStore) (i : ClassId) : List ClassId :=
  Search.breadthFirst (fun j => s.bases j ++ (s.templateBase? j).toList) s.classes.size i

/-- The class itself or something that it is made of cannot be copied from outside. -/
def inheritsPrivateCopy (s : ClassStore) (i : ClassId) : Bool :=
  (copiedWith s i).any s.hasPrivateCopy

/-- Give a class its implicit constructors; the copy constructor of a value is one. -/
def addImplicit (s : ClassStore) (i : ClassId) : ClassStore :=
  if takesImplicit (s.get i) then
    let s :=
      if (s.get i).constructors.isEmpty then
        s.modify i fun c => c.addFunction (implicitConstructor i c)
      else s
    let c := s.get i
    if c.entry.isKind .value && !c.has .abstract && c.copyConstructor?.isNone then
      s.modify i fun c => c.addFunction (implicitCopy i c (inheritsPrivateCopy s i))
    else s
  else s

def addImplicitAll (s : State) : State :=
  { s with store := s.registry.members.foldl addImplicit s.store }

/-- The function that copies instances of a class. -/
def copyFunction? (c : BoundClass) : Option Function :=
  c.functions.find? fun f => f.kind == .copyConstructor || f.kind == .assignmentOperator

/-- The copy function of the first class in a queue to which bases are added; `n` bounds the
visits. -/
def nearestCopy? (s : ClassStore) : (n : Nat) → (queue : List ClassId) → Option Function
  | 0, _ | _, [] => none
  | n + 1, i :: queue =>
    (copyFunction? (s.get i)).or <|
      nearestCopy? s n (queue ++ s.interfaces i ++ (s.base? i).toList)

/-- The copy function of the class or, breadth first, of its bases is public, if there is one. -/
def isClonable (s : ClassStore) (visits : Nat) (i : ClassId) : Bool :=
  ((copyFunction? (s.get i)).or (nearestCopy? s visits (s.bases i))).all (·.visibility = .pub)

def markClonable (visits : Nat) (s : ClassStore) (i : ClassId) : ClassStore :=
  if isClonable s visits i then s.modify i (·.addAttr .hasCloneOperator) else s

end BindingModel.Assembly
