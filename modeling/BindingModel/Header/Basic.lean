import BindingModel.FlagSet
import BindingModel.Spelled
import BindingModel.TypeExpr.Basic

/-! Declarations of a header, as a tree of scopes. -/
namespace BindingModel.Header

inductive Access
  | pub
  | prot
  | priv
  deriving DecidableEq, Repr, Inhabited

instance : Spelled Access where
  table :=
    [(.pub, "Public"), (.prot, "Protected"), (.priv, "Private")]

inductive EnumKind
  | plain
  | anonymous
  | scoped
  deriving DecidableEq, Repr, Inhabited

instance : Spelled EnumKind where
  table :=
    [(.plain, "CEnum"), (.anonymous, "AnonymousEnum"), (.scoped, "EnumClass")]

inductive ExceptionSpec
  | unknown
  | noExcept
  | throws
  deriving DecidableEq, Repr, Inhabited

instance : Spelled ExceptionSpec where
  table :=
    [(.unknown, "Unknown"), (.noExcept, "NoExcept"), (.throws, "Throws")]

/-- What a front end takes a function for. -/
inductive FunctionKind
  | normal
  | constructor
  | copyConstructor
  | moveConstructor
  | destructor
  | signal
  | slot
  deriving DecidableEq, Repr, Inhabited

instance : Spelled FunctionKind where
  table :=
    [(.normal, "Normal"), (.constructor, "Constructor"), (.copyConstructor, "CopyConstructor"),
     (.moveConstructor, "MoveConstructor"), (.destructor, "Destructor"), (.signal, "Signal"),
     (.slot, "Slot")]

/-- Declaration specifiers of a function. -/
inductive Specifier
  | const
  | virtual
  | override
  | final
  | abstract
  | static
  | explicit
  | deleted
  | friend
  | deprecated
  | invokable
  | variadic
  | inline
  deriving DecidableEq, Repr

instance : Spelled Specifier where
  table :=
    [(.const, "CONST"), (.virtual, "VIRTUAL"), (.override, "OVERRIDE"), (.final, "FINAL"),
     (.abstract, "ABSTRACT"), (.static, "STATIC"), (.explicit, "EXPLICIT"), (.deleted, "DELETED"),
     (.friend, "FRIEND"), (.deprecated, "DEPRECATED"), (.invokable, "INVOKABLE"),
     (.variadic, "VARIADIC"), (.inline, "INLINE")]

structure ArgumentDecl where
  /-- Empty when unnamed. -/
  name : String
  type : TypeExpr
  default? : Option String := none
  deriving Repr

structure FunctionDecl where
  name : String
  kind : FunctionKind := .normal
  access : Access := .pub
  returnType : TypeExpr := .ofName "void"
  args : List ArgumentDecl := []
  specifiers : FlagSet Specifier := {}
  templateParams : List String := []
  exceptionSpec : ExceptionSpec := .unknown
  file? : Option String := none
  deriving Repr

structure Enumerator where
  name : String
  /-- The initializer as written, empty when implicit. -/
  expression : String := ""
  value : Int
  deriving DecidableEq, Repr

structure EnumDecl where
  /-- Empty for an anonymous enum. -/
  name : String
  kind : EnumKind := .plain
  access : Access := .pub
  enumerators : List Enumerator := []
  signed : Bool := true
  file? : Option String := none
  deriving Repr

structure TypedefDecl where
  name : String
  target : TypeExpr
  file? : Option String := none
  deriving Repr

structure VariableDecl where
  name : String
  type : TypeExpr
  access : Access := .pub
  isStatic : Bool := false
  isFriend : Bool := false
  deriving Repr

structure BaseDecl where
  /-- The name as written, with its template arguments. -/
  name : String
  access : Access := .pub
  deriving DecidableEq, Repr

/-- What a scope declares apart from further scopes. -/
structure Declarations where
  /-- Empty for the global scope. -/
  name : String := ""
  file? : Option String := none
  enums : List EnumDecl := []
  typedefs : List TypedefDecl := []
  functions : List FunctionDecl := []
  vars : List VariableDecl := []
  deriving Repr, Inhabited

structure ClassDecl where
  decls : Declarations := {}
  classes : List ClassDecl := []
  bases : List BaseDecl := []
  templateParams : List String := []
  isFinal : Bool := false
  /-- The texts of property declarations. -/
  properties : List String := []
  deriving Repr, Inhabited

def ClassDecl.name (c : ClassDecl) : String := c.decls.name

structure NamespaceDecl where
  decls : Declarations := {}
  classes : List ClassDecl := []
  namespaces : List NamespaceDecl := []
  deriving Repr, Inhabited

def NamespaceDecl.name (n : NamespaceDecl) : String := n.decls.name

end Header

/-- The declarations that one header file brings. -/
structure Header where
  /-- The main header file. -/
  file : String := ""
  global : Header.NamespaceDecl := {}
  deriving Repr, Inhabited

end BindingModel
