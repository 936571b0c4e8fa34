import BindingModel.Assembly.Include
import BindingModel.Text.Bytes

/-! Include paths cut out of the paths of files by their bytes, and a table of the answers that were
given before. The answers are those of the include paths. -/
namespace BindingModel.Assembly

namespace IncludePaths

/-- The path goes on below the directory: behind its bytes stands a slash, and something more. -/
def isBelow (file directory : String) : Bool :=
  directory ≠ "" && directory.utf8ByteSize + 1 < file.utf8ByteSize &&
    directory.toList.isPrefixOf file.toList &&
      Text.byteAt? file directory.utf8ByteSize == some '/'.toUInt8

/-- The last one of those with the most bytes. -/
def longest? : List String → Option String
  | [] => none
  | d :: ds =>
    match longest? ds with
    | none => some d
    | some e => if e.utf8ByteSize < d.utf8ByteSize then some d else some e

/-- The include path of a file. There is no answer if the path cannot be cut behind the slash. -/
def answer? (p : IncludePaths) (file : String) : Option (Option String) :=
  let bare := (fileName? file).getD file
  if p.globalHeader? = some bare then some none
  else
    match longest? (p.directories.filter (isBelow file)) with
    | some d => (Text.fromByte? file (d.utf8ByteSize + 1)).map some
    | none => some (some bare)

end IncludePaths

/-- Include paths with the answers that were given, the latest first. -/
structure IncludeResolver where
  paths : IncludePaths
  answers : List (String × Option String) := []

namespace IncludeResolver

/-- Answer as before, or else find the answer and remember it. -/
def ask? (r : IncludeResolver) (file : String) : Option (Option String × IncludeResolver) :=
  match r.answers.lookup file with
  | some answer => some (answer, r)
  | none =>
    (r.paths.answer? file).map fun answer =>
      (answer, { r with answers := (file, answer) :: r.answers })

/-- Ask for one file after another. -/
def askAll? (r : IncludeResolver) (files : List String) : Option IncludeResolver :=
  files.foldlM (fun r file => (r.ask? file).map (·.2)) r

end IncludeResolver
end BindingModel.Assembly
