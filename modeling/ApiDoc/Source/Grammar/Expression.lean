import ApiDoc.Source.Grammar.Operator
import ApiDoc.Text.Split

/-!
# Expressions

Of most expressions nothing is kept but that they are there, and the items met
in their blocks.
-/

set_option autoImplicit false

namespace ApiDoc.Source.Grammar

open Source.Parser Source.Trees

variable (g : Grammar) (structs : Bool)

/-! ## Blocks -/

def attributedBlock : Parser Unit := inside .brace do
  let _ ← g.innerAttributes
  g.statements

def condition : Parser Unit := do
  let _ ← g.expr false

def branchesFrom : Nat → Parser Unit
  | 0 => failure
  | fuel + 1 => do
    keyword "if"
    g.condition
    g.block
    if ← keyword? "else" then
      if ← ahead (isWord "if") then branchesFrom fuel else g.block

def branches : Parser Unit := do g.branchesFrom ((← get).trees.length + 1)

def whileLoop : Parser Unit := do
  keyword "while"
  g.condition
  g.attributedBlock

def forLoop : Parser Unit := do
  keyword "for"
  let _ ← g.anyAlternatives
  keyword "in"
  g.condition
  g.attributedBlock

def endlessLoop : Parser Unit := do
  keyword "loop"
  g.attributedBlock

def isContinued (ts : Trees) : Bool := (isMark "." ts && !isMark ".." ts) || isMark "?" ts

/-! ## Parts behind an expression -/

def isIndex (cs : List Char) : Bool :=
  match Literal.integer? cs with
  | some (.integer n suffixed, []) => n < UInt32.size && !suffixed
  | _ => false

/-- Two indices read as one decimal fraction; with a point at the end another
member follows. -/
def doubleIndex (spelling : List Char) : Parser Bool := do
  let open_ := spelling.getLast? = some '.'
  let parts := Text.cut '.' (if open_ then spelling.dropLast else spelling)
  guard (parts.all isIndex)
  drop 1
  return open_

def callArguments : Parser Unit := do
  let _ ← inside .parenthesis (terminated (g.expr true))

def selected : Parser Unit := do
  if ← keyword? "await" then return ()
  let named ← member
  let turbofish := named && (← ahead (isMark "::"))
  if turbofish then
    mark "::"
    let _ ← g.angledArguments
  if named && (turbofish || (← ahead (isGroup .parenthesis))) then g.callArguments

def selection : Parser Unit := do
  mark "."
  match (← get).trees with
  | .literal (.decimal _ spelling) :: _ =>
    if ← doubleIndex spelling.toList then g.selected
  | _ => g.selected

def trailersFrom : Nat → Expr → Parser Expr
  | 0, _ => failure
  | fuel + 1, e => do
    let next := (← get).trees
    if isGroup .parenthesis next then
      g.callArguments
      trailersFrom fuel .other
    else if isGroup .bracket next then
      let _ ← inside .bracket (g.expr true)
      trailersFrom fuel .other
    else if isRange e then return e
    else if isMark "?" next then
      mark "?"
      trailersFrom fuel .other
    else if isContinued next then
      g.selection
      trailersFrom fuel .other
    else return e

def trailers (e : Expr) : Parser Expr := do g.trailersFrom ((← get).trees.length + 1) e

/-! ## Jumps -/

def startsExpression (ts : Trees) : Bool :=
  isAny [isAnyWord, isGroup .parenthesis, isGroup .bracket, isGroup .brace, isLiteral,
      isMark "..", isMark "::", isLifetime, isMark "#"] ts
    || (isMark "!" ts && !isMark "!=" ts)
    || (isMark "-" ts && !isMark "-=" ts && !isMark "->" ts)
    || (isMark "*" ts && !isMark "*=" ts)
    || (isMark "|" ts && !isMark "|=" ts)
    || (isMark "&" ts && !isMark "&=" ts)
    || (isMark "<" ts && !isMark "<=" ts && !isMark "<<=" ts)

def optionalExpression : Parser Unit := do
  if ← ahead startsExpression then
    let _ ← g.expr true

def breakOut : Parser Unit := do
  keyword "break"
  if ← lifetime? then guard (!(← ahead (isMark ":")))
  if structs || !(← ahead (isGroup .brace)) then g.optionalExpression

/-! ## Closures -/

def closureArgument : Parser Unit := do
  let _ ← g.outerAttributes
  let _ ← g.pattern
  if ← mark? ":" then
    let _ ← g.typeExpr true

def closure : Parser Unit := do
  let _ ← g.boundLifetimes?
  let _ ← keyword? "const"
  let _ ← keyword? "static"
  let _ ← keyword? "async"
  let _ ← keyword? "move"
  mark "|"
  let _ ← separated (isMark "|") "," g.closureArgument
  mark "|"
  if ← mark? "->" then
    let _ ← g.typeExpr true
    g.block
  else
    let _ ← g.expr structs

/-! ## Lists, tuples and structs -/

def tupleOrGroup : Parser Expr := inside .parenthesis do
  let _ ← terminated (g.expr true)
  return .other

def list : Parser Expr := inside .bracket do
  if ← atEnd then return .array []
  else
    let first ← g.expr true
    if ← mark? ";" then
      let _ ← g.expr true
      return .other
    else if ← atEnd then return .array [first]
    else
      mark ","
      return .array (first :: (← terminated (g.expr true)))

def fieldValue : Parser Unit := do
  let named ← member
  if !named || (← ahead (isMark ":")) then
    mark ":"
    let _ ← g.expr true

def fieldValuesFrom : Nat → Parser Unit
  | 0 => failure
  | fuel + 1 => do
    if ← atEnd then return ()
    if ← mark? ".." then
      if !(← atEnd) then
        let _ ← g.expr true
      return ()
    let _ ← g.outerAttributes
    g.fieldValue
    if ← atEnd then return ()
    mark ","
    fieldValuesFrom fuel

def fieldValues : Parser Unit := inside .brace do
  g.fieldValuesFrom ((← get).trees.length + 1)

def pathExpression : Parser Expr := do
  let p ← g.path true
  if p.isPlain && (← ahead (isMark "!")) && !(← ahead (isMark "!=")) then
    mark "!"
    let d ← anyGroup
    return .invocation (d = .brace)
  else if structs && (← ahead (isGroup .brace)) then
    g.fieldValues
    return .other
  else return .other

/-! ## Matches -/

def isBlock : Expr → Bool
  | .block => true
  | _ => false

def arm : Parser Unit := do
  let _ ← g.outerAttributes
  let _ ← g.anyAlternatives
  if ← keyword? "if" then
    let _ ← g.expr true
  mark "=>"
  let body ← g.early
  let comma ← mark? ","
  guard (comma || isBlock body || (← atEnd))

def arms : Parser Unit := do
  keyword "match"
  g.condition
  inside .brace do
    let _ ← g.innerAttributes
    let _ ← repeatToEnd g.arm

/-! ## Any expression -/

def startsClosureLifetimes (ts : Trees) : Bool :=
  isWord "for" ts && isMark "<" (ts.drop 1) && isAny [isLifetime, isMark ">"] (ts.drop 2)

def isBlockLike (ts : Trees) : Bool :=
  isAny [isWord "if", isWord "while", isWord "loop", isWord "match", isWord "unsafe",
      isGroup .brace, isLifetime] ts
    || (isWord "for" ts && !startsClosureLifetimes ts)
    || (isAny [isWord "try", isWord "const"] ts && isGroup .brace (ts.drop 1))

def labelled : Parser Unit := do
  lifetime
  mark ":"
  let next := (← get).trees
  if isWord "while" next then g.whileLoop
  else if isWord "for" next then g.forLoop
  else if isWord "loop" next then g.endlessLoop
  else g.attributedBlock

def blockLike : Parser Expr := do
  let next := (← get).trees
  if isWord "if" next then g.branches
  else if isWord "while" next then g.whileLoop
  else if isWord "for" next then g.forLoop
  else if isWord "loop" next then g.endlessLoop
  else if isWord "match" next then g.arms
  else if isLifetime next then g.labelled
  else if isGroup .brace next then g.attributedBlock
  else if isWord "try" next then
    keyword "try"
    g.block
  else
    drop 1
    g.attributedBlock
  return .block

def startsClosure (ts : Trees) : Bool :=
  isAny [isMark "|", isWord "move", isWord "static"] ts || startsClosureLifetimes ts
    || (isWord "const" ts && !isGroup .brace (ts.drop 1))
    || (isWord "async" ts && isAny [isMark "|", isWord "move"] (ts.drop 1))

def startsAsync (ts : Trees) : Bool :=
  isWord "async" ts
    && (isGroup .brace (ts.drop 1) || (isWord "move" (ts.drop 1) && isGroup .brace (ts.drop 2)))

def startsPathExpression (ts : Trees) : Bool :=
  isAny [isName, isMark "::", isMark "<", isWord "self", isWord "Self", isWord "super",
      isWord "crate"] ts
    || (isWord "try" ts && isAny [isMark "!", isMark "::"] (ts.drop 1))

def letCondition : Parser Unit := do
  keyword "let"
  let _ ← g.anyAlternatives
  mark "="
  let e ← g.unary structs
  let _ ← g.withOperations structs e Precedence.comparison

def builtin : Parser Unit := do
  drop 1
  mark "#"
  let _ ← name
  guard (← ahead (isGroup .parenthesis))
  drop 1

def plainAtom (ts : Trees) : Parser Unit := do
  if startsAsync ts then
    keyword "async"
    let _ ← keyword? "move"
    g.block
  else if startsClosure ts then g.closure structs
  else if isWord "break" ts then g.breakOut structs
  else if isWord "continue" ts then
    keyword "continue"
    let _ ← lifetime?
  else if isAny [isWord "return", isWord "yield"] ts then
    drop 1
    g.optionalExpression
  else if isWord "become" ts then
    drop 1
    let _ ← g.expr true
  else if isWord "let" ts then g.letCondition structs
  else keyword "_"

def atom : Parser Expr := do
  let next := (← get).trees
  if isLiteral next then literal
  else if startsAsync next || startsClosure next then
    g.plainAtom structs next
    return .other
  else if isWord "builtin" next && isMark "#" (next.drop 1) then
    builtin
    return .other
  else if startsPathExpression next then g.pathExpression structs
  else if isBlockLike next then g.blockLike
  else if isGroup .parenthesis next then g.tupleOrGroup
  else if isGroup .bracket next then g.list
  else if isMark ".." next then
    rangeEnd g structs (← steps)
    return .range
  else
    g.plainAtom structs next
    return .other

def address : Parser Unit := do
  mark "&"
  if (← ahead (isWord "raw")) && (← beyond 1 (isAny [isWord "mut", isWord "const"])) then drop 2
  else
    let _ ← keyword? "mut"
  let _ ← g.unary structs

def unaryExpression : Parser Expr := do
  let attributes ← g.outerAttributes
  let next := (← get).trees
  if isMark "&" next then
    g.address structs
    return .other
  else if isMark "-" next then
    mark "-"
    return .negated (← g.unary structs)
  else if isAny [isMark "*", isMark "!"] next then
    drop 1
    let _ ← g.unary structs
    return .other
  else
    let e ← g.trailers (← g.atom structs)
    guard (attributes.isEmpty || !isRange e)
    return e

def expression : Parser Expr := do
  g.withOperations structs (← g.unaryExpression structs) Precedence.lowest

/-- A block where a statement may end is continued only when a member of it is
selected or it is tried. -/
def earlyExpression : Parser Expr := do
  let attributes ← g.outerAttributes
  if ← ahead isBlockLike then
    let e ← g.blockLike
    if ← ahead isContinued then
      g.withOperations true (← g.trailers e) Precedence.lowest
    else return e
  else
    let e ← g.unaryExpression true
    guard (attributes.isEmpty || !isRange e)
    g.withOperations true e Precedence.lowest

end ApiDoc.Source.Grammar
