import ApiDoc.Source.Grammar.Function

/-!
# Members of traits, implementations and foreign modules
-/

set_option autoImplicit false

namespace ApiDoc.Source.Grammar

open Source.Parser Source.Trees

variable (g : Grammar)

def constant? : Parser (Bool × Bool) := do
  keyword "const"
  let _ ← if ← ahead (isWord "_") then anyWord else name
  let plain := !(← ahead (isMark "<"))
  let _ ← g.generics
  mark ":"
  let _ ← g.typeExpr true
  let valued ← mark? "="
  if valued then
    let _ ← g.expr true
  let plain := plain && !(← ahead (isWord "where"))
  g.whereClause
  mark ";"
  return (plain, valued)

def associatedType : Parser Unit := do
  keyword "type"
  let _ ← name
  let _ ← g.generics
  if ← mark? ":" then
    let _ ← g.boundChain (isAny [isWord "where", isMark "=", isMark ";"])
  g.whereClause
  if ← mark? "=" then
    let _ ← g.typeExpr true
  g.whereClause
  mark ";"

def macroItem : Parser Unit := do
  let _ ← plainPath
  mark "!"
  if ← ahead (isAny [isName, isWord "try"]) then
    let _ ← anyWord
  let d ← anyGroup
  if d ≠ .brace then mark ";"

def keepingIf (p : Parser Bool) : Parser Unit := do
  let before := (← get).found
  if !(← p) then modify fun c => { c with found := before }

def method? (attributes : List Attribute) : Parser (Option Function) := do
  let f ← g.functionHead
  if ← mark? ";" then return none
  else return some { f with attributes := attributes ++ (← g.functionBody) }

def implementationMember : Parser (Option Function) := do
  let before := (← get).found
  let attributes ← g.outerAttributes
  let start := (← get).trees
  let _ ← visibility
  if (← ahead (isWord "default")) && !(← beyond 1 (isMark "!")) then drop 1
  let next := (← get).trees
  if isSignatureStart next then
    let f ← g.method? attributes
    if f.isNone then modify fun c => { c with found := before }
    return f
  else if isWord "const" next then
    keepingIf do
      let (plain, valued) ← g.constant?
      return plain && valued
  else if isWord "type" next then g.associatedType
  else
    guard (start.length = next.length)
    macroItem
  return none

def traitMember : Parser Unit := keepingIf do
  let _ ← g.outerAttributes
  let start := (← get).trees
  let _ ← visibility
  let _ ← keyword? "default"
  let next := (← get).trees
  let inherited := start.length = next.length
  if isSignatureStart next then
    let _ ← g.functionHead
    if !(← mark? ";") then
      let _ ← g.functionBody
    return inherited
  else if isWord "const" next then
    let (plain, _) ← g.constant?
    return plain && inherited
  else if isWord "type" next then
    g.associatedType
    return inherited
  else
    guard inherited
    macroItem
    return true

def startsForeignStatic (ts : Trees) : Bool :=
  isWord "static" ts
    || (isAny [isWord "unsafe", isWord "safe"] ts && isWord "static" (ts.drop 1))

def foreignMember : Parser Unit := keepingIf do
  let _ ← g.outerAttributes
  let start := (← get).trees
  let _ ← visibility
  let next := (← get).trees
  if isSignatureStart next then
    let _ ← keyword? "safe"
    let _ ← g.functionHead
    if ← ahead (isGroup .brace) then
      let _ ← g.functionBody
      return false
    else
      mark ";"
      return true
  else if startsForeignStatic next then
    if !(← keyword? "unsafe") then
      let _ ← keyword? "safe"
    keyword "static"
    let _ ← keyword? "mut"
    let _ ← name
    mark ":"
    let _ ← g.typeExpr true
    let valued ← mark? "="
    if valued then
      let _ ← g.expr true
    mark ";"
    return !valued
  else if isWord "type" next then
    g.associatedType
    return true
  else
    guard (start.length = next.length)
    macroItem
    return true

end ApiDoc.Source.Grammar
