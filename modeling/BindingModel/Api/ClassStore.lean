import BindingModel.Api.BoundClass

/-! All classes by number, and the walks along their links. -/
namespace BindingModel.Api

/-- Classes by number. A link to a class that was released leads nowhere. -/
structure ClassStore where
  classes : Array BoundClass := #[]
  released : List ClassId := []
  deriving Repr, Inhabited

namespace ClassStore

def create (s : ClassStore) (c : BoundClass) : ClassId × ClassStore :=
  (s.classes.size, { s with classes := s.classes.push c })

def get (s : ClassStore) (i : ClassId) : BoundClass := (s.classes[i]?).getD default

def modify (s : ClassStore) (i : ClassId) (f : BoundClass → BoundClass) : ClassStore :=
  { s with classes := s.classes.modify i f }

def isLive (s : ClassStore) (i : ClassId) : Bool := decide (i < s.classes.size) && i ∉ s.released

/-- Something not released holds the class: a holder outside, or the inner list of a class. -/
def isHeld (s : ClassStore) (held : List ClassId) (i : ClassId) : Bool :=
  held.contains i ||
    (List.range s.classes.size).any fun j => s.isLive j && (s.get j).inner.contains i

/-- Release what nothing holds, and then what only that held; `n` bounds the rounds. -/
def releaseRounds (held : List ClassId) : (n : Nat) → ClassStore → ClassStore
  | 0, s => s
  | n + 1, s =>
    match (List.range s.classes.size).find? fun i => s.isLive i && !s.isHeld held i with
    | none => s
    | some i => releaseRounds held n { s with released := i :: s.released }

/-- Release every class that neither `held` nor another class holds. Classes that are inner classes
of one another hold themselves. -/
def releaseUnheld (s : ClassStore) (held : List ClassId) : ClassStore :=
  releaseRounds held s.classes.size s

/-- Follow a link. -/
def follow? (s : ClassStore) (link? : Option ClassId) : Option ClassId := link?.filter s.isLive

def base? (s : ClassStore) (i : ClassId) : Option ClassId := s.follow? (s.get i).base?

def enclosing? (s : ClassStore) (i : ClassId) : Option ClassId := s.follow? (s.get i).enclosing?

def templateBase? (s : ClassStore) (i : ClassId) : Option ClassId :=
  s.follow? (s.get i).templateBase?

def interfaces (s : ClassStore) (i : ClassId) : List ClassId := (s.get i).interfaces.filter s.isLive

/-- The primary base and then the interfaces. -/
def bases (s : ClassStore) (i : ClassId) : List ClassId := (s.base? i).toList ++ s.interfaces i

/-- The primary bases one after another, up to the first repetition; `n` bounds their number. -/
def baseChainFrom (s : ClassStore) : Nat → (seen : List ClassId) → ClassId → List ClassId
  | 0, _, _ => []
  | n + 1, seen, i =>
    match s.base? i with
    | none => []
    | some b => if b ∈ seen then [] else b :: baseChainFrom s n (b :: seen) b

def baseChain (s : ClassStore) (i : ClassId) : List ClassId := s.baseChainFrom s.classes.size [] i

/-- Along primary bases, or directly from an interface. -/
def inheritsFrom (s : ClassStore) (i ancestor : ClassId) : Bool :=
  (s.baseChain i).contains ancestor || (s.interfaces i).contains ancestor

/-- The nearest copy constructor among the class and its primary bases is private. -/
def hasPrivateCopy (s : ClassStore) (i : ClassId) : Bool :=
  match (i :: s.baseChain i).findSome? fun j => (s.get j).copyConstructor? with
  | some f => f.visibility = .priv
  | none => false

def function? (s : ClassStore) (r : FunctionRef) : Option Function :=
  (s.get r.owner).functions[r.index]?

/-- The name of the class that a link leads to. -/
def linkName? (s : ClassStore) (link? : Option ClassId) : Option String :=
  (s.follow? link?).map fun i => (s.get i).qualifiedName

def scopeText (s : ClassStore) (link? : Option ClassId) : String :=
  match s.linkName? link? with
  | some n => n ++ "::"
  | none => ""

def functionText (s : ClassStore) (f : Function) : String :=
  s.scopeText f.implementing? ++ f.name ++ "(" ++ Text.joinWith ", " (f.args.map (·.text)) ++ ")" ++
    if f.has .const then " const" else ""

def fieldText (s : ClassStore) (f : Field) : String :=
  s.scopeText f.enclosing? ++ f.name ++ " (" ++ f.type.signature ++ ")"

/-- The modifications that apply to a function: those of its class, or else global ones. -/
def modsOf (s : ClassStore) (db : Database) (f : Function) : List FunctionMod :=
  match s.follow? f.implementing? with
  | some i => db.modsFor (s.get i).entry f.signature
  | none => db.globalModsFor f.signature

def isRemoved (s : ClassStore) (db : Database) (f : Function) : Bool :=
  (s.modsOf db f).any (·.isRemoved)

def docsOf (s : ClassStore) (f : Function) : List DocMod :=
  match s.follow? f.implementing? with
  | some i =>
    ((s.get i).entry.rules?.map (·.docs)).getD [] |>.filter fun d =>
      Signature.normalize d.signature == f.signature
  | none => []

end ClassStore

/-- Registered classes in order of registration. -/
structure Registry where
  members : List ClassId := []
  /-- Classes that were removed. -/
  removed : List ClassId := []
  deriving Repr, Inhabited

namespace Registry

/-- Register a class once. -/
def insert (r : Registry) (i : ClassId) : Registry :=
  if i ∈ r.members then r else { r with members := r.members ++ [i] }

def remove (r : Registry) (i : ClassId) : Registry :=
  if i ∈ r.members then
    { members := r.members.filter (· ≠ i), removed := i :: r.removed }
  else r

/-- The classes that the registry keeps from being released. A removal is no release: links to the
class go on working. -/
def held (r : Registry) : List ClassId := r.members ++ r.removed

def contains (r : Registry) (i : ClassId) : Bool := r.members.contains i

def findByName? (r : Registry) (s : ClassStore) (name : String) : Option ClassId :=
  r.members.find? fun i => (s.get i).qualifiedName == name

def classOf? (r : Registry) (s : ClassStore) (e : Entry) : Option ClassId :=
  r.members.find? fun i => (s.get i).entry.same e

end Registry
end BindingModel.Api
