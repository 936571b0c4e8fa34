import BindingModel.Api.BoundType

/-! Properties, as declared by a text or a rule and as bound to a class. -/
namespace BindingModel.Api

/-- A property as written: type, name and accessors. -/
structure PropertyText where
  name : String
  type : TypeExpr
  read : String
  write? : Option String := none
  reset? : Option String := none
  designable? : Option String := none
  deriving Repr

namespace PropertyText

/-- Words that begin a clause of a property text. -/
def keywords : List String :=
  ["READ", "WRITE", "RESET", "NOTIFY", "DESIGNABLE", "SCRIPTABLE", "STORED", "USER", "CONSTANT",
   "FINAL", "MEMBER", "REVISION"]

/-- The accessors found in the clauses. -/
structure Clauses where
  read? : Option String := none
  write? : Option String := none
  reset? : Option String := none
  designable? : Option String := none

/-- Take one clause; a later clause of the same keyword counts. -/
def Clauses.take (c : Clauses) (keyword : String) (value? : Option String) : Clauses :=
  match keyword with
  | "READ" => { c with read? := value? }
  | "WRITE" => { c with write? := value? }
  | "RESET" => { c with reset? := value? }
  | "DESIGNABLE" => { c with designable? := value? }
  | _ => c

/-- Clauses are pairs of words; the last may lack its value. -/
def Clauses.read (c : Clauses) : List String → Clauses
  | [] => c
  | [keyword] => c.take keyword none
  | keyword :: value :: rest => read (c.take keyword (some value)) rest

/-- Read `type name READ getter …`. -/
def parse (src : String) : Except Error PropertyText := do
  let (front, clauses) := (Text.words src).span (· ∉ keywords)
  if clauses.isEmpty then TypeExpr.fail (.propertyWithoutRead src) else
  if front.length < 2 then TypeExpr.fail (.propertyWithoutTypeOrName src) else
  let (type, name?) ← TypeExpr.parseDeclaration (Text.joinWith " " front)
  match name?, Clauses.read {} clauses with
  | none, _ => TypeExpr.fail (.propertyWithoutName src)
  | some _, { read? := none, .. } => TypeExpr.fail (.propertyWithoutRead src)
  | some name, { read? := some read, write?, reset?, designable? } =>
    pure { name, type, read, write?, reset?, designable? }

def ofDecl (d : PropertyDecl) : Except Error PropertyText := do
  pure { name := d.name, type := ← TypeExpr.parse d.type, read := d.read, write? := d.write?,
         reset? := d.reset?, designable? := d.designable? }

end PropertyText

/-- A property of a class. -/
structure Property where
  name : String
  type : BoundType
  read : String
  write? : Option String := none
  reset? : Option String := none
  designable? : Option String := none
  /-- The position among the properties of the class. -/
  index : Nat
  deriving Repr, Inhabited

namespace Property

def ofText (p : PropertyText) (type : BoundType) (index : Nat) : Property where
  name := p.name
  type := type
  read := p.read
  write? := p.write?
  reset? := p.reset?
  designable? := p.designable?
  index := index

def clause (keyword : String) : Option String → String
  | some accessor => " " ++ keyword ++ " " ++ accessor
  | none => ""

def text (p : Property) : String :=
  p.type.signature ++ " " ++ p.name ++ " READ " ++ p.read ++ clause "WRITE" p.write? ++
    clause "RESET" p.reset?

/-- The property has the entry and the indirections of `t`; other qualifiers do not count. -/
def sameType (p : Property) (t : BoundType) : Bool :=
  p.type.name == t.name && p.type.entry.kind == t.entry.kind && p.type.pointers == t.pointers

end Property
end BindingModel.Api
