import BindingModel.Api.RejectionLog
import BindingModel.Assembly.Include
import BindingModel.Assembly.Warning
import BindingModel.Lookup.Binding

/-! What an assembly works with: its surroundings, its state and the place in the header. -/
namespace BindingModel.Assembly
open Api

structure Config where
  skipDeprecated : Bool := false
  headerPaths : List String := []
  globalHeader? : Option String := none
  maxScopeDepth : Nat := 64
  maxTemplateDepth : Nat := 100
  addDefaultConstructors : Bool := true
  deriving Repr, Inhabited

def Config.strict : Config := { skipDeprecated := true }

def Config.minimal : Config := { skipDeprecated := true, addDefaultConstructors := false }

structure Env where
  config : Config
  header : Header
  includes : IncludePaths

structure State where
  db : Database
  store : ClassStore := {}
  /-- Every class but templates and smart pointers. -/
  registry : Registry := {}
  templates : List ClassId := []
  smartPointers : List ClassId := []
  globalFunctions : List Function := []
  globalEnums : List Enumeration := []
  log : RejectionLog := {}
  /-- The classes by their scope in the header, last one first. -/
  scopes : List (String × ClassId) := []
  /-- Classes whose bases are resolved or being resolved. -/
  settled : List ClassId := []
  /-- Latest first. -/
  warnings : List Warning := []

/-- A place in the header: the class around it and the names of the scopes around it. -/
structure Place where
  class? : Option ClassId := none
  path : List String := []

/-- Steps that may fail and keep what was done before. -/
abbrev Build := EStateM Error State

namespace State

def lookup (s : State) (env : Env) : Lookup where
  db := s.db
  header? := some env.header
  store := s.store
  registry? := some s.registry
  globalEnums := s.globalEnums
  maxScopeDepth := env.config.maxScopeDepth
  maxTemplateDepth := env.config.maxTemplateDepth

def warn (s : State) (w : Warning) : State := { s with warnings := w :: s.warnings }

/-- Add warnings given in their order. -/
def warnAll (s : State) (ws : List Warning) : State := ws.foldl warn s

def warnIf (s : State) (c : Bool) (w : Warning) : State := if c then s.warn w else s

def reject (s : State) (c : RejectCategory) (r : RejectRecord) : State :=
  { s with log := s.log.record c r }

def createClass (s : State) (c : BoundClass) : ClassId × State :=
  let (i, store) := s.store.create c
  (i, { s with store })

def modifyClass (s : State) (i : ClassId) (f : BoundClass → BoundClass) : State :=
  { s with store := s.store.modify i f }

def modifyDatabase (s : State) (f : Database → Database) : State := { s with db := f s.db }

/-- Give an entry the include path of a file, if it has none. -/
def applyInclude (s : State) (env : Env) (e : Entry) (file? : Option String) : State :=
  match (file?.filter (· ≠ "")).bind env.includes.include? with
  | some path => s.modifyDatabase (·.setInclude e path)
  | none => s

/-- File a class by the kind of its entry. -/
def addClass (s : State) (i : ClassId) : State :=
  match (s.store.get i).entry.kind with
  | .container => if i ∈ s.templates then s else { s with templates := s.templates ++ [i] }
  | .smartPointer =>
    if i ∈ s.smartPointers then s else { s with smartPointers := s.smartPointers ++ [i] }
  | _ => { s with registry := s.registry.insert i }

/-- The class created for an entry. -/
def classOf? (s : State) (e : Entry) : Option ClassId :=
  (s.registry.classOf? s.store e).or <|
    (s.templates ++ s.smartPointers).find? fun i => (s.store.get i).entry.same e

/-- The class that a name means inside a class, templates and smart pointers included. -/
def findClass? (s : State) (env : Env) (name : String) (context? : Option ClassId) :
    Option ClassId :=
  ((s.lookup env).findClass? name context?).or <|
    (s.templates ++ s.smartPointers).find? fun i =>
      (s.store.get i).qualifiedName == Text.withoutArguments name

end State

namespace Place

/-- The place inside a scope. -/
def enter (p : Place) (i : ClassId) (name : String) : Place := ⟨some i, p.path ++ [name]⟩

/-- The qualified name of something declared here. -/
def qualify (p : Place) (store : ClassStore) (name : String) : String :=
  match p.class? with
  | some i => (store.get i).qualifiedName ++ "::" ++ name
  | none => name

/-- The key of a scope declared here. -/
def key (p : Place) (name : String) : String := Text.qualified (p.path ++ [name])

end Place
end BindingModel.Assembly
