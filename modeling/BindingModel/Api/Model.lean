import BindingModel.Api.ClassStore
import BindingModel.Api.RejectionLog

/-! The finished model of an interface. -/
namespace BindingModel.Api

structure Model where
  store : ClassStore
  /-- Each class after those it depends on. -/
  classes : List ClassId
  interfaces : List ClassId
  templates : List ClassId
  smartPointers : List ClassId
  globalFunctions : List Function
  globalEnums : List Enumeration
  log : RejectionLog

namespace Model

def allClasses (m : Model) : List ClassId :=
  m.classes ++ m.interfaces ++ m.templates ++ m.smartPointers

def findClass? (m : Model) (name : String) : Option ClassId :=
  m.allClasses.find? fun i => (m.store.get i).qualifiedName == name

def classOf? (m : Model) (e : Entry) : Option ClassId :=
  m.allClasses.find? fun i => (m.store.get i).entry.same e

/-- The enum of the global scope or of a class, by its qualified name. -/
def findEnum? (m : Model) (name : String) : Option Enumeration :=
  (m.globalEnums ++ m.classes.flatMap fun i => (m.store.get i).enums).find?
    (·.qualifiedName == name)

def functionsNamed (m : Model) (name : String) : List Function :=
  m.globalFunctions.filter (·.name == name)

/-- The position among the ordered classes. -/
def position? (m : Model) (name : String) : Option Nat :=
  m.classes.findIdx? fun i => (m.store.get i).qualifiedName == name

end Model
end BindingModel.Api
