import BindingModel.Api.ClassGraph
import BindingModel.Api.Model
import BindingModel.Assembly.Consistency
import BindingModel.Assembly.Construction
import BindingModel.Assembly.Inheritance
import BindingModel.Assembly.Operators
import BindingModel.Assembly.Policies

/-! Assembling a model from a header and the rules. -/
namespace BindingModel
open Api Assembly

namespace Assembly

/-- Everything between the members and the order of the classes. -/
def complete (env : Env) (s : State) : State :=
  let s := settleAll env s
  let s := if env.config.addDefaultConstructors then addImplicitAll s else s
  checkMods (addOperators env (markPrintable env (markHashable env (checkEntries s))))

/-- Mark clonable classes and file conversions, class by class. -/
def linkCopies (classes : List ClassId) (s : State) : State :=
  let visits := s.registry.members.length + 1
  classes.foldl (fun s i => addConversions { s with store := markClonable visits s.store i } i) s

/-- Order the inner classes of generated classes. -/
def orderInner (classes : List ClassId) : Build Unit :=
  classes.forM fun i => do
    let s ← get
    let c := s.store.get i
    if s.db.generates c.entry && c.inner.length > 1 then
      match s.store.orderClasses c.inner with
      | .ok inner => set (s.modifyClass i fun c => { c with inner })
      | .error e => throw e
    else pure ()

/-- All steps; the result is the order of the classes. -/
def run (env : Env) : Build (List ClassId) := do
  declareAll env
  fillAll env
  modify (complete env)
  let s ← get
  match s.store.sortClasses s.registry.members with
  | .error e => throw e
  | .ok classes =>
    modify (linkCopies classes)
    orderInner classes
    fillGlobalAdded env
    modify (settlePoliciesAll classes)
    pure classes

def State.model (s : State) (classes : List ClassId) : Model where
  store := s.store
  classes := classes
  interfaces := s.registry.members.filter fun i => (s.store.get i).isInterface
  templates := s.templates
  smartPointers := s.smartPointers
  globalFunctions := s.globalFunctions
  globalEnums := s.globalEnums
  log := s.log

end Assembly

/-- A model or the reason why there is none, with the warnings in order and the database as the
assembly leaves it. -/
structure Assembled where
  result : Except Error Model
  warnings : List Warning
  db : Database

/-- Assemble the model of a header by the rules of a database. -/
def assemble (config : Config) (header : Header) (db : Database) : Assembled :=
  let env : Env := ⟨config, header, .make config.headerPaths config.globalHeader?⟩
  match (run env).run { db } with
  | .ok classes s => ⟨.ok (s.model classes), s.warnings.reverse, s.db⟩
  | .error e s => ⟨.error e, s.warnings.reverse, s.db⟩

end BindingModel
