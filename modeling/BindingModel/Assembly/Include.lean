import BindingModel.Text.Cut

/-! The include path of a header file. -/
namespace BindingModel.Assembly

/-- The last component of a path, if that is a name. Empty components and `.` do not count. -/
def fileName? (path : String) : Option String :=
  let parts := (Text.splitBy (· == '/') path.toList).filter fun p => !p.isEmpty && p != ['.']
  match parts.getLast? with
  | none | some ['.', '.'] => none
  | some name => some (.ofList name)

/-- Where headers are searched, and which header needs no include. -/
structure IncludePaths where
  directories : List String := []
  globalHeader? : Option String := none

namespace IncludePaths

def make (directories : List String) (globalHeader? : Option String) : IncludePaths where
  directories := directories.map fun d => .ofList (Text.dropEndWhile (· == '/') d.toList)
  globalHeader? := globalHeader?.bind fileName?

/-- The path of a file below a directory. -/
def below? (file directory : String) : Option String :=
  if directory ≠ "" ∧ directory.toList.isPrefixOf file.toList then
    match file.toList.drop directory.length with
    | '/' :: c :: rest => some (.ofList (c :: rest))
    | _ => none
  else none

/-- The path below the deepest directory that holds the file. -/
def belowDeepest? (file : String) : List String → Option String
  | [] => none
  | d :: ds =>
    match below? file d, belowDeepest? file ds with
    | some a, some b => if a.length < b.length then some a else some b
    | a?, b? => a?.or b?

/-- The include path of a file; the global header has none. -/
def include? (p : IncludePaths) (file : String) : Option String :=
  let bare := (fileName? file).getD file
  if p.globalHeader? = some bare then none
  else some ((belowDeepest? file p.directories).getD bare)

end IncludePaths
end BindingModel.Assembly
