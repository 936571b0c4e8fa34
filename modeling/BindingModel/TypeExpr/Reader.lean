import BindingModel.Error
import BindingModel.TypeExpr.Token

/-! Reading type expressions and parameter declarations. -/
namespace BindingModel.TypeExpr
open Token

/-- Reading succeeds with a value and the units that follow it. -/
abbrev Reader (α : Type) := List Token → Except Error (α × List Token)

def fail {α : Type} (m : Malformed) : Except Error α := .error (.malformed m)

/-- Type expressions may be nested less deep than this. -/
def nestingLimit : Nat := 50

/-- Words that combine into one builtin type name. -/
def builtinWords : List String :=
  ["unsigned", "signed", "short", "long", "int", "char", "double", "float"]

/-- Specifiers that carry no information for a lookup. -/
def elaboratedKeywords : List String := ["typename", "struct", "class", "enum", "union"]

/-- Collect `const` and `volatile`, which add to those seen before. -/
def readCv (c v : Bool) : List Token → (Bool × Bool) × List Token
  | .ident "const" :: ts => readCv true v ts
  | .ident "volatile" :: ts => readCv c true ts
  | ts => ((c, v), ts)

/-- Pass over one elaborated keyword. -/
def skipElaborated : List Token → List Token
  | .ident w :: ts => if w ∈ elaboratedKeywords then ts else .ident w :: ts
  | ts => ts

/-- A name segment; builtin words in sequence form one. -/
def readSegment (w : String) : List Token → String × List Token
  | .ident u :: ts =>
    if w ∈ builtinWords ∧ u ∈ builtinWords then
      let (s, ts) := readSegment u ts
      (w ++ " " ++ s, ts)
    else (w, .ident u :: ts)
  | ts => (w, ts)

/-- Read `T, …, T>`, which follows an opening bracket. -/
def readArguments (src : String) (readType : Reader TypeExpr) : Nat → Reader (List TypeExpr)
  | 0, _ => fail (.unterminatedArguments src)
  | n + 1, ts => do
    let (t, ts) ← readType ts
    match ts with
    | .comma :: ts =>
      let (rest, ts) ← readArguments src readType n ts
      pure (t :: rest, ts)
    | .greater :: ts => pure ([t], ts)
    | tok :: _ => fail (.unexpectedInArguments tok.text src)
    | [] => fail (.unterminatedArguments src)

/-- Template arguments, if an opening bracket follows. -/
def readTemplate (src : String) (readType : Reader TypeExpr) : Reader (List TypeExpr)
  | .less :: .greater :: ts => pure ([], ts)
  | .less :: ts => readArguments src readType (ts.length + 1) ts
  | ts => pure ([], ts)

/-- A qualified name. Arguments of an enclosing template do not survive into the nested name. -/
def readSegments (src : String) (readType : Reader TypeExpr) :
    Nat → Reader (List String × List TypeExpr)
  | n + 1, .ident w :: ts => do
    let (seg, ts) := readSegment w ts
    let (args, ts) ← readTemplate src readType ts
    match ts with
    | .scope :: ts =>
      let ((segs, args), ts) ← readSegments src readType n ts
      pure ((seg :: segs, args), ts)
    | ts => pure (([seg], args), ts)
  | _, _ => fail (.expectedIdentifier src)

/-- The name and template arguments of a type. -/
def readName (src : String) (readType : Reader TypeExpr) : Reader (List String × List TypeExpr)
  | .ellipsis :: ts => pure ((["..."], []), ts)
  | .number d :: ts => pure (([d], []), ts)
  | .scope :: ts => readSegments src readType ts.length ts
  | .ident w :: ts => readSegments src readType (ts.length + 1) (.ident w :: ts)
  | tok :: _ => fail (.unexpectedInType tok.text src)
  | [] => fail (.emptyType src)

/-- Count `*` and find the last reference mark. Qualifiers after a `*` are dropped. -/
def readDeclarators (n : Nat) (r : RefKind) (afterStar : Bool) :
    List Token → (Nat × RefKind) × List Token
  | .star :: ts => readDeclarators (n + 1) r true ts
  | .amp :: ts => readDeclarators n .lvalue false ts
  | .ampAmp :: ts => readDeclarators n .rvalue false ts
  | .ident w :: ts =>
    if afterStar ∧ (w = "const" ∨ w = "volatile") then readDeclarators n r true ts
    else ((n, r), .ident w :: ts)
  | ts => ((n, r), ts)

/-- The unit that stands next must be `tok`. -/
def expect (src : String) (tok : Token) : List Token → Except Error (List Token)
  | found :: ts =>
    if found = tok then pure ts else fail (.expected tok.text found.text src)
  | [] => fail (.expectedAtEnd tok.text src)

def skipIdent : List Token → List Token
  | .ident _ :: ts => ts
  | ts => ts

/-- Read `T a, …, T z)`, which follows an opening bracket; the names are optional and dropped. -/
def readParams (src : String) (readType : Reader TypeExpr) : Nat → Reader (List TypeExpr)
  | 0, _ => fail (.pointerParameters src)
  | n + 1, ts => do
    let (t, ts) ← readType ts
    match skipIdent ts with
    | .comma :: ts =>
      let (rest, ts) ← readParams src readType n ts
      pure (t :: rest, ts)
    | .rightParen :: ts => pure ([t], ts)
    | _ => fail (.pointerParameters src)

/-- The parameter part `(*name)(T, …)` of a function pointer, if it follows. -/
def readPointer (src : String) (readType : Reader TypeExpr) : Reader (Option (List TypeExpr))
  | .leftParen :: .star :: ts => do
    let ts ← expect src .rightParen (skipIdent ts)
    let ts ← expect src .leftParen ts
    match ts with
    | .rightParen :: ts => pure (some [], ts)
    | ts =>
      let (params, ts) ← readParams src readType (ts.length + 1) ts
      pure (some params, ts)
  | ts => pure (none, ts)

/-- Append a unit to a dimension; two words are kept apart by a space. -/
def extendDimension (dim : String) (tok : Token) : String :=
  let isWord := match tok with
    | .ident _ | .number _ => true
    | _ => false
  if isWord && dim.toList.getLast?.any Text.isNameChar then dim ++ " " ++ tok.text
  else dim ++ tok.text

/-- Array dimensions; `inside` holds what was read of an unclosed one. -/
def readDimensions (src : String) : (inside : Option String) → Reader (List String)
  | none, .leftBracket :: ts => readDimensions src (some "") ts
  | none, ts => pure ([], ts)
  | some d, .rightBracket :: ts => do
    let (ds, ts) ← readDimensions src none ts
    pure (d :: ds, ts)
  | some d, tok :: ts => readDimensions src (some (extendDimension d tok)) ts
  | some _, [] => fail (.unterminatedArray src)

/-- A type at the front of the units; `budget` more levels of nesting are allowed. -/
def readType (src : String) : (budget : Nat) → Reader TypeExpr
  | 0, _ => .error (.recursionLimit nestingLimit)
  | budget + 1, ts => do
    let ((c, v), ts) := readCv false false ts
    let ((name, args), ts) ← readName src (readType src budget) (skipElaborated ts)
    let ((c, v), ts) := readCv c v ts
    let ((pointers, ref), ts) := readDeclarators 0 .none false ts
    let (params?, ts) ← readPointer src (readType src budget) ts
    let (dims, ts) ← readDimensions src none ts
    pure ({ name, isConst := c, isVolatile := v, pointers, ref, dims, args, params? }, ts)

def tokens (src : String) : Except Error (List Token) :=
  match Token.scan src.toList with
  | some ts => pure ts
  | none => fail (.doubleDot src)

/-- Read a complete type expression. -/
def parse (src : String) : Except Error TypeExpr := do
  let (t, rest) ← readType src (nestingLimit - 1) (← tokens src)
  match rest with
  | [] => pure t
  | tok :: _ => fail (.trailing tok.text src)

/-- Read a type that may be followed by a parameter name. -/
def parseDeclaration (src : String) : Except Error (TypeExpr × Option String) := do
  let (t, rest) ← readType src (nestingLimit - 1) (← tokens src)
  match rest with
  | [] => pure (t, none)
  | [.ident name] => pure (t, some name)
  | .ident _ :: _ => fail (.trailingInDeclaration src)
  | tok :: _ => fail (.unexpectedInDeclaration tok.text src)

end BindingModel.TypeExpr
