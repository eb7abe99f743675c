import ApiDoc.Source.Grammar.Path

/-!
# Patterns

Only the names that a pattern binds directly are kept, with the constructors,
references and tuples around them.
-/

set_option autoImplicit false

namespace ApiDoc.Source.Grammar

open Source.Parser Source.Trees

variable (g : Grammar)

/-! ## Alternatives -/

def isAlternative (ts : Trees) : Bool := isMark "|" ts && !isMark "||" ts && !isMark "|=" ts

def alternatives (marked : Bool) : Parser Pattern := do
  let first ← g.pattern
  let others ← repeatWhile isAlternative do
    mark "|"
    g.pattern
  return if marked || !others.isEmpty then .other else first

def anyAlternatives : Parser Pattern := do
  let marked ← mark? "|"
  g.alternatives marked

/-! ## Ranges -/

def endsRange (ts : Trees) : Bool :=
  isAny [List.isEmpty, isMark "|", isMark "=", isMark ",", isMark ";", isWord "if"] ts
    || (isMark ":" ts && !isMark "::" ts)

def constBlock : Parser Unit := do
  keyword "const"
  inside .brace do
    let _ ← g.innerAttributes
    g.statements

def isPathStart : Trees → Bool := isAny [isPathWord, isMark "::", isMark "<"]

def rangeEnd? : Parser Bool := do
  if ← ahead endsRange then return false
  else if ← ahead isLiteral then
    let _ ← literal
    return true
  else if ← ahead isPathStart then
    let _ ← g.path true
    return true
  else
    g.constBlock
    return true

def rangePoints : Parser Bool := do
  if (← mark? "..=") || (← mark? "...") then return true
  else
    mark ".."
    return false

def rangeRest : Parser Pattern := do
  let closed ← rangePoints
  let ended ← g.rangeEnd?
  guard (ended || !closed)
  return if ended then .other else .openRange

def pointsPattern : Parser Pattern := do
  guard (!(← ahead (isMark "...")))
  let closed ← rangePoints
  let ended ← g.rangeEnd?
  guard (ended || !closed)
  return if ended then .openRange else .rest

/-! ## Constructors -/

def member : Parser Bool := do
  if ← ahead isName then
    let _ ← name
    return true
  else
    match (← get).trees with
    | .literal (.integer n false) :: _ =>
      guard (n < UInt32.size)
      drop 1
      return false
    | _ => failure

def fieldPattern : Parser Unit := do
  let boxed ← keyword? "box"
  let byRef ← keyword? "ref"
  let mutable ← keyword? "mut"
  if boxed || byRef || mutable then
    let _ ← name
  else
    let named ← member
    if !named || (← ahead (isMark ":")) then
      mark ":"
      let _ ← g.anyAlternatives

def isPoints (ts : Trees) : Bool := isMark ".." ts

def fieldPatternsFrom : Nat → Parser Unit
  | 0 => failure
  | fuel + 1 => do
    if ← atEnd then return ()
    let _ ← g.outerAttributes
    if ← mark? ".." then return ()
    g.fieldPattern
    if ← atEnd then return ()
    mark ","
    fieldPatternsFrom fuel

def fieldPatterns : Parser Unit := inside .brace do
  g.fieldPatternsFrom ((← get).trees.length + 1)

def pathPattern : Parser Pattern := do
  let p ← g.path true
  if (← ahead (isMark "!")) && !(← ahead (isMark "!=")) && p.isPlain then
    mark "!"
    let _ ← anyGroup
    return .other
  else if ← ahead (isGroup .brace) then
    g.fieldPatterns
    return .other
  else if ← ahead (isGroup .parenthesis) then
    return .applied (← inside .parenthesis (terminated g.anyAlternatives))
  else if ← ahead isPoints then g.rangeRest
  else return .other

/-! ## Names, references and lists -/

def namePattern : Parser Pattern := do
  let _ ← keyword? "ref"
  let _ ← keyword? "mut"
  let bound ← if ← ahead (isWord "self") then anyWord else name
  if ← mark? "@" then
    let _ ← g.pattern
  return .name bound

def referencePattern : Parser Pattern := do
  mark "&"
  let _ ← keyword? "mut"
  return .reference (← g.pattern)

def isRest : Pattern → Bool
  | .rest => true
  | _ => false

def tuplePattern : Parser Pattern := inside .parenthesis do
  if ← atEnd then return .tuple []
  else
    let first ← g.anyAlternatives
    if ← atEnd then return if isRest first then .tuple [first] else .other
    else
      mark ","
      return .tuple (first :: (← terminated g.anyAlternatives))

def isOpenRange : Pattern → Bool
  | .openRange => true
  | _ => false

def listPattern : Parser Pattern := inside .bracket do
  let elements ← terminated g.anyAlternatives
  guard (!elements.any isOpenRange)
  return .other

def literalPattern : Parser Pattern := do
  if ← ahead isLiteral then
    let _ ← literal
  else g.constBlock
  if ← ahead isPoints then g.rangeRest else return .other

def startsPathPattern (ts : Trees) : Bool :=
  (isName ts && isAny [isMark "::", isMark "!", isGroup .brace, isGroup .parenthesis, isMark ".."]
      (ts.drop 1))
    || (isWord "self" ts && isMark "::" (ts.drop 1))
    || isAny [isMark "::", isMark "<", isWord "Self", isWord "super", isWord "crate"] ts

def singlePattern : Parser Pattern := do
  let next := (← get).trees
  if startsPathPattern next then g.pathPattern
  else if isWord "_" next then
    keyword "_"
    return .other
  else if isWord "box" next then
    keyword "box"
    let _ ← g.pattern
    return .other
  else if isAny [isMark "-", isLiteral, isWord "const"] next then g.literalPattern
  else if isAny [isWord "ref", isWord "mut", isWord "self", isName] next then g.namePattern
  else if isMark "&" next then g.referencePattern
  else if isGroup .parenthesis next then g.tuplePattern
  else if isGroup .bracket next then g.listPattern
  else if isPoints next then g.pointsPattern
  else failure

end ApiDoc.Source.Grammar
