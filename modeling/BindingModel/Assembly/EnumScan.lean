import BindingModel.Assembly.FunctionDraft

/-! Enums of the model, with their enumerators in the database. -/
namespace BindingModel.Assembly
open Api Header

/-- The first enum entry of that name. -/
def enumNamed? (db : Database) (name : String) : Option Entry :=
  (db.named name).find? (·.isKind .enumeration)

/-- A name inside a scope; the global scope is empty. -/
def inScope (scope name : String) : String := if scope = "" then name else scope ++ "::" ++ name

/-- The entry of an enum without a name, found by the name of an enumerator. -/
def entryOfAnonymous? (db : Database) (d : EnumDecl) (scope : String) : Option Entry :=
  d.enumerators.findSome? fun v => enumNamed? db (inScope scope v.name)

/-- The entry of an enum and the name it goes by. A private enum gets an entry if it has none. -/
def enumEntry (s : State) (d : EnumDecl) (scope : String) : Option Entry × String × State :=
  let name := inScope scope d.name
  if d.access = .priv then
    match enumNamed? s.db name with
    | some e => (some e, name, s)
    | none =>
      let (e, db) := s.db.add name .enumeration
      (some e, name, { s with db })
  else if d.kind = .anonymous ∨ d.name = "" then
    match entryOfAnonymous? s.db d scope with
    | some e => (some e, e.name, s)
    | none => (none, name, s)
  else (s.db.findType? name, name, s)

/-- Register an enumerator whose name no other has. -/
def registerEnumValue (db : Database) (name value : String) (enum? : Option Entry) : Database :=
  if (db.named name).any (·.isKind .enumValue) then db
  else (db.add name (.enumValue value enum?)).2

/-- What precedes the names of enumerators: those of a scoped enum are inside it. -/
def valueScope (d : EnumDecl) (e : Entry) (scope : String) : String :=
  let outer := if scope = "" then "" else scope ++ "::"
  match d.kind with
  | .scoped => outer ++ e.localName ++ "::"
  | _ => outer

/-- Register the enumerators of an enum and its null value. -/
def registerEnumValues (d : EnumDecl) (e : Entry) (scope : String) (db : Database) : Database :=
  d.enumerators.foldl (fun db v =>
    let db := registerEnumValue db (scope ++ v.name) (toString v.value) (some e)
    if v.value = 0 then db.setNullValue e v.name else db) db

/-- Take up an enum of a class, of a namespace or of the global scope. -/
def scanEnum (env : Env) (s : State) (enclosing? : Option ClassId) (d : EnumDecl) :
    Option Enumeration × State :=
  let scope := (enclosing?.map fun c => (s.store.get c).qualifiedName).getD ""
  let (found?, name, s) := enumEntry s d scope
  match s.db.rejection? .enumeration scope d.name with
  | some rule =>
    let s := match found? with
      | some e => s.modifyDatabase (·.setCodegen e noCode)
      | none => s
    (none, s.reject .enums ⟨name, .generationDisabled, some rule⟩)
  | none =>
    match found?.filter (·.isKind .enumeration) with
    | none =>
      let isGenerated := match enclosing? with
        | some c => s.db.generatesTargetLang (s.store.get c).entry
        | none => true
      (none, (s.warnIf isGenerated (.enumWithoutEntry name)).reject .enums
        ⟨name, .notInTypeSystem, none⟩)
    | some e =>
      let s := if d.access = .priv then s.modifyDatabase (·.setCodegen e noCode) else s
      let s := s.modifyDatabase (registerEnumValues d e (valueScope d e scope))
      let s := s.applyInclude env e d.file?
      (some {
        entry := e
        values := d.enumerators.map fun v => ⟨v.name, v.value, v.expression⟩
        visibility := Visibility.ofAccess d.access
        kind := d.kind
        signed := d.signed
        enclosing? }, s)

end BindingModel.Assembly
