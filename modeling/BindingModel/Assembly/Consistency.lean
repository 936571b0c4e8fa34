import BindingModel.Assembly.State

/-! Rules that nothing in the header answers to. -/
namespace BindingModel.Assembly
open Api

/-- The enum is among those of its class, or of the global scope. -/
def isDeclaredEnum (s : State) (e : Entry) : Bool :=
  match (e.enumQualifier?.getD "") with
  | "" => s.globalEnums.any (·.entry.same e)
  | q => (s.registry.findByName? s.store q).any fun i =>
    ((s.store.get i).findEnum? e.localName).isSome

/-- Warn of an entry that the header does not declare. Such an enum is not generated. -/
def checkEntry (s : State) (e : Entry) : State :=
  match e.kind with
  | .value | .object =>
    s.warnIf
      (s.db.generatesTargetLang e && (s.db.rejection? .excludeClass e.name "").isNone &&
        (s.classOf? e).isNone)
      (.typeNotDefined e.name)
  | .function =>
    if s.db.generates e then
      s.warnAll <| (e.signatures.filter fun sig => s.globalFunctions.all (·.signature != sig)).map
        .globalFunctionNotDefined
    else s
  | .enumeration =>
    if s.db.generatesTargetLang e && !isDeclaredEnum s e then
      (s.modifyDatabase (·.setCodegen e noCode)).warn (.enumNotDeclared e.name)
    else s
  | _ => s

def checkEntries (s : State) : State := s.db.entries.foldl checkEntry s

/-- The name of a signature: the text before the first parenthesis. -/
def signatureName (signature : String) : String := .ofList (signature.toList.takeWhile (· ≠ '('))

/-- The modification covers a function that the class implements. -/
def coversMember (s : ClassStore) (i : ClassId) (m : FunctionMod) : Bool :=
  (s.get i).functions.any fun f => s.follow? f.implementing? == some i && m.covers f.signature

/-- A function that a modification may be meant for. -/
def candidateText (s : ClassStore) (f : Function) : String :=
  f.signature ++ " in " ++ ((s.follow? f.implementing?).map fun i => (s.get i).name).getD ""

/-- The warnings of the modifications that cover no function of their class. -/
def unmatchedMods (db : Database) (s : ClassStore) (i : ClassId) : List Warning :=
  let c := s.get i
  ((db.mods c.entry).filter (!coversMember s i ·)).map fun m =>
    let signature := Text.trim m.target.text
    let candidates := c.functions.filter (·.declaredName == signatureName signature)
    .modificationUnmatched signature c.qualifiedName (candidates.map (candidateText s))

def checkMods (s : State) : State :=
  s.warnAll (s.registry.members.flatMap (unmatchedMods s.db s.store))

end BindingModel.Assembly
