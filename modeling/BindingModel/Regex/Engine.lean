import BindingModel.Pattern
import BindingModel.Regex.Reader

/-! The engine that programs run with. It reads the syntax that rule files use, and turns down the
rest: flags, classes by Unicode property, characters by their number. -/
namespace BindingModel.Regex

def compile (source : String) : Except String Pattern :=
  match ofSource? source with
  | some r => .ok { source, occursIn := fun text => r.occursIn text.toList }
  | none => .error "regex parse error"

def engine : Pattern.Engine where
  escape text := .ofList (text.toList.flatMap Pattern.escapeChar)
  compile

end BindingModel.Regex
