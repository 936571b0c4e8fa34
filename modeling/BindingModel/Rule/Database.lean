import BindingModel.Rule.Entry
import BindingModel.Rule.Rejection

/-! The rule database: registered entries, what is known of each, and global rules. -/
namespace BindingModel

/-- Code is generated for both sides. -/
def allCode : Nat := 0xffff

/-- Bits of the code generation policy under which no code is generated. -/
def noCode : Nat := 0

/-- Bits of the policy for classes that only serve as a base. -/
def subclassCode : Nat := 4

/-- An entry with what may be set after its creation. -/
structure EntryState where
  entry : Entry
  /-- Bits of the code generation policy. -/
  codegen : Nat := allCode
  include? : Option String := none
  /-- The enumerator that stands for zero. -/
  nullValue? : Option String := none
  /-- The primitive that a primitive is an alias of. -/
  referenced? : Option Entry := none
  baseContainer? : Option Entry := none
  mods : List FunctionMod := []
  deriving Inhabited

def EntryState.generates (s : EntryState) : Bool := s.codegen != subclassCode && s.codegen != noCode

structure Database where
  /-- Every entry ever created, by number. -/
  states : Array EntryState := #[]
  /-- Registered entries but typedefs, in order of registration. -/
  entries : List Entry := []
  typedefs : List Entry := []
  rejections : List Rejection := []
  globalAdded : List AddedFunction := []
  globalMods : List FunctionMod := []
  policies : Policies := {}
  deriving Inhabited

namespace Database

/-- Create an entry without registering it. -/
def create (db : Database) (name : String) (detail : EntryDetail Entry)
    (mods : List FunctionMod := []) : Entry × Database :=
  let e : Entry := ⟨some db.states.size, name, detail⟩
  (e, { db with states := db.states.push { entry := e, mods } })

/-- Register an entry once; a typedef is kept apart and registers its target. -/
def register (db : Database) (e : Entry) : Database :=
  match e with
  | ⟨id?, name, .typedef source target⟩ =>
    let e : Entry := ⟨id?, name, .typedef source target⟩
    if db.typedefs.any (·.same e) then db
    else register { db with typedefs := db.typedefs ++ [e] } target
  | e => if db.entries.any (·.same e) then db else { db with entries := db.entries ++ [e] }

/-- Create and register. -/
def add (db : Database) (name : String) (detail : EntryDetail Entry) : Entry × Database :=
  let (e, db) := db.create name detail
  (e, db.register e)

/-- The database that knows `void` and `...` only. -/
def initial : Database :=
  let (_, db) := Database.add {} "void" .void
  (db.add "..." .varargs).2

/-! Looking up entries by name, first registered first. -/

def named (db : Database) (name : String) : List Entry := db.entries.filter (·.name == name)

/-- The first entry that is not a function. -/
def findType? (db : Database) (name : String) : Option Entry :=
  (db.named name).find? (!·.isKind .function)

def findComplex? (db : Database) (name : String) : Option Entry :=
  (db.named name).find? (·.isComplex)

def findPrimitive? (db : Database) (name : String) : Option Entry :=
  (db.named name).find? (·.isKind .primitive)

def findNamespace? (db : Database) (name : String) : Option Entry :=
  (db.named name).find? (·.isKind .namespaceScope)

def findFunction? (db : Database) (name : String) : Option Entry :=
  (db.named name).find? (·.isKind .function)

/-- The container of that name, whose template arguments do not count. -/
def findContainer? (db : Database) (name : String) : Option Entry :=
  (db.findType? (Text.withoutArguments name)).filter (·.isKind .container)

/-- Flags by name, or else by alias; the alias registered last counts. -/
def findFlags? (db : Database) (name : String) : Option Entry :=
  match (db.findType? name).filter (·.isKind .flags) with
  | some e => some e
  | none => db.entries.reverse.find? (·.flagsAlias? == some name)

/-- Insert into a sorted list without repetition. -/
def insertSorted (s : String) : List String → List String
  | [] => [s]
  | t :: ts => if s < t then s :: t :: ts else if s = t then t :: ts else t :: insertSorted s ts

/-- The registered names that end in `::` and `name`, sorted and each once. -/
def candidates (db : Database) (name : String) : List String :=
  let tail := (':' :: ':' :: name.toList).reverse
  ((db.entries.map (·.name)).filter fun n => tail.isPrefixOf n.toList.reverse).foldr insertSorted []

/-! What is known of an entry. An entry that the database did not create is in its first state. -/

def state (db : Database) (e : Entry) : EntryState :=
  (e.id?.bind (db.states[·]?)).getD { entry := e }

def modify (db : Database) (e : Entry) (f : EntryState → EntryState) : Database :=
  match e.id? with
  | some i => { db with states := db.states.modify i f }
  | none => db

def generates (db : Database) (e : Entry) : Bool := (db.state e).generates

/-- The policy has its bit for the target language. -/
def generatesTargetLang (db : Database) (e : Entry) : Bool := (db.state e).codegen.testBit 0

def setCodegen (db : Database) (e : Entry) (bits : Nat) : Database :=
  db.modify e fun s => { s with codegen := bits }

/-- Set the include path, which is set once. -/
def setInclude (db : Database) (e : Entry) (path : String) : Database :=
  db.modify e fun s => { s with include? := s.include?.or (some path) }

/-- Set the null value of an enum, once. -/
def setNullValue (db : Database) (e : Entry) (name : String) : Database :=
  if e.isKind .enumeration then
    db.modify e fun s => { s with nullValue? := s.nullValue?.or (some name) }
  else db

/-- Set what a primitive is an alias of, once. -/
def setReferenced (db : Database) (e target : Entry) : Database :=
  if e.isKind .primitive then
    db.modify e fun s => { s with referenced? := s.referenced?.or (some target) }
  else db

/-- Set the container a class is derived from, once. -/
def setBaseContainer (db : Database) (e container : Entry) : Database :=
  if e.isComplex then
    db.modify e fun s => { s with baseContainer? := s.baseContainer?.or (some container) }
  else db

/-- Append a function modification to a class entry. -/
def addMod (db : Database) (e : Entry) (m : FunctionMod) : Database :=
  if e.isComplex then db.modify e fun s => { s with mods := s.mods ++ [m] } else db

def mods (db : Database) (e : Entry) : List FunctionMod :=
  if e.isComplex then (db.state e).mods else []

def modsFor (db : Database) (e : Entry) (signature : String) : List FunctionMod :=
  (db.mods e).filter (·.covers signature)

/-! Global rules. -/

/-- The text of the first rule that rejects. -/
def rejection? (db : Database) (kind : RejectionKind) (className name : String) : Option String :=
  (db.rejections.find? (·.covers kind className name)).map (·.text)

def globalModsFor (db : Database) (signature : String) : List FunctionMod :=
  db.globalMods.filter (·.covers (Signature.normalize signature))

end Database
end BindingModel
