import ApiDoc.Source.Grammar.Type

/-!
# Functions

A function is kept as its name, its inputs and its output. The receiver can only
be the first input.
-/

set_option autoImplicit false

namespace ApiDoc.Source.Grammar

open Source.Parser Source.Trees

variable (g : Grammar)

/-! ## Visibility -/

def isScope (inner : Trees) : Bool :=
  match inner with
  | [.word name] => name = "crate" || name = "self" || name = "super"
  | _ => isWord "in" inner

def visibility : Parser Bool := do
  if ← keyword? "pub" then
    match (← get).trees with
    | .group .parenthesis inner :: _ =>
      if isWord "in" inner then
        inside .parenthesis do
          keyword "in"
          let _ ← plainPath
      else if isScope inner then drop 1
    | _ => pure ()
    return true
  else return false

/-! ## Functions -/

def isSignatureStart (ts : Trees) : Bool :=
  let ts := if isWord "const" ts then ts.drop 1 else ts
  let ts := if isWord "async" ts then ts.drop 1 else ts
  let ts := if isAny [isWord "unsafe", isWord "safe"] ts then ts.drop 1 else ts
  let ts := if isWord "extern" ts then (if isText (ts.drop 1) then ts.drop 2 else ts.drop 1) else ts
  isWord "fn" ts

def receiver : Parser Unit := do
  let byRef ← mark? "&"
  if byRef then
    let _ ← lifetime?
  let _ ← keyword? "mut"
  keyword "self"
  if !byRef then
    if ← mark? ":" then
      let _ ← g.typeExpr true

/-- An argument with the attributes that were read before it, or the receiver.
An argument that is only a type has no name. -/
def functionInput (attributes : List Attribute) : Parser (Option Input) :=
  (do g.receiver; return none) <|> do
    if (← ahead isName) && (← beyond 1 (isMark "<")) then
      return some ⟨attributes, .other, ← g.typeExpr true⟩
    else
      let pattern ← g.pattern
      mark ":"
      return some ⟨attributes, pattern, ← g.typeExpr true⟩

def isVariadic (ts : Trees) : Bool := isMark "..." ts

def variadic : Parser Unit := do
  mark "..."
  if !(← atEnd) then mark ","

def namedVariadic? : Parser Bool :=
  (do
    let _ ← g.pattern
    mark ":"
    variadic
    return true) <|> return false

def inputsFrom : Nat → List (Option Input) → Parser (List (Option Input))
  | 0, _ => failure
  | fuel + 1, read => do
    if ← atEnd then return read.reverse
    let attributes ← g.outerAttributes
    if ← ahead isVariadic then
      variadic
      return read.reverse
    if ← g.namedVariadic? then return read.reverse
    let input ← g.functionInput attributes
    guard (input.isSome || read.isEmpty)
    if ← atEnd then return (input :: read).reverse
    mark ","
    inputsFrom fuel (input :: read)

def functionHead : Parser Function := do
  let _ ← keyword? "const"
  let _ ← keyword? "async"
  let _ ← keyword? "unsafe"
  convention
  keyword "fn"
  let word ← name
  let _ ← g.generics
  let inputs ← inside .parenthesis do g.inputsFrom ((← get).trees.length + 1) []
  let output ← g.returnType true
  g.whereClause
  return ⟨[], word, inputs, output⟩

def functionBody : Parser (List Attribute) := inside .brace do
  let attributes ← g.innerAttributes
  g.statements
  return attributes

end ApiDoc.Source.Grammar
