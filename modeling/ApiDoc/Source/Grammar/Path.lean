import ApiDoc.Source.Grammar

/-!
# Paths

Names with colons between them. Behind a name may stand arguments in angle
brackets, or in parentheses with a result; inside expressions angle brackets
need colons in front.
-/

set_option autoImplicit false

namespace ApiDoc.Source.Grammar

open Source.Parser Source.Trees

variable (g : Grammar)

def boundLifetimes : Parser Unit := do
  keyword "for"
  mark "<"
  let _ ← separated (isMark ">") "," do
    let _ ← g.outerAttributes
    lifetime
  mark ">"

def boundLifetimes? : Parser Bool := do
  if ← ahead (isWord "for") then
    g.boundLifetimes
    return true
  else return false

def returnType (plus : Bool) : Parser (Option TypeExpr) := do
  if ← mark? "->" then return some (← g.typeExpr plus) else return none

/-! ## Arguments -/

def isConstant (ts : Trees) : Bool := isLiteral ts || isGroup .brace ts

def constant : Parser Unit := do
  if ← ahead isLiteral then
    let _ ← literal
  else if ← ahead isName then
    let _ ← name
  else
    inside .brace do
      let _ ← g.innerAttributes
      g.statements

def boundChain (stop : Trees → Bool) : Parser (List Bound) := chain stop "+" (g.bound false true)

def associated (p : Path) : Parser (Option TypeExpr) := do
  if ← mark? "=" then
    if ← ahead isConstant then
      g.constant
      return none
    else return some (← g.typeExpr true)
  else if ← mark? ":" then
    let _ ← g.boundChain (isAny [isMark ",", isMark ">"])
    return none
  else return some p.typeExpr

def genericArgument : Parser (Option TypeExpr) := do
  if (← ahead isLifetime) && !(← beyond 1 (isMark "+")) then
    lifetime
    return none
  else if ← ahead isConstant then
    g.constant
    return none
  else
    match ← g.type true with
    | .path p => if p.isAssociated then g.associated p else return some p.typeExpr
    | form => return some form.typeExpr

def angledArguments : Parser (List TypeExpr) := do
  mark "<"
  let arguments ← separated (isMark ">") "," g.genericArgument
  mark ">"
  return arguments.filterMap id

/-! ## Segments -/

def startsArguments (exprStyle : Bool) (ts : Trees) : Bool :=
  (!exprStyle && isMark "<" ts && !isMark "<=" ts && !isMark "<<=" ts)
    || (isMark "::" ts && isMark "<" (ts.drop 2))

def segment (exprStyle : Bool) : Parser Segment := do
  if ← ahead (isAny [isWord "super", isWord "self", isWord "crate", isWord "try"]) then
    return ⟨← anyWord, .none⟩
  else
    let word ← if ← ahead (isWord "Self") then anyWord else name
    if ← ahead (startsArguments exprStyle) then
      let _ ← mark? "::"
      return ⟨word, .angled (← g.angledArguments)⟩
    else return ⟨word, .none⟩

def unqualifiedPath (exprStyle : Bool) : Parser Path := do
  let absolute ← mark? "::"
  let first ← g.segment exprStyle
  let others ← repeatWhile (fun ts => isMark "::" ts && !isGroup .parenthesis (ts.drop 2)) do
    mark "::"
    g.segment exprStyle
  return { absolute, first, others }

def path (exprStyle : Bool) : Parser Path := do
  if ← mark? "<" then
    let _ ← g.typeExpr true
    if ← keyword? "as" then
      let _ ← g.unqualifiedPath false
    mark ">"
    mark "::"
    let first ← g.segment exprStyle
    let others ← repeatWhile (isMark "::") do
      mark "::"
      g.segment exprStyle
    return { qualified := true, first, others }
  else g.unqualifiedPath exprStyle

/-! ## Signatures -/

def isSignature (ts : Trees) : Bool :=
  isGroup .parenthesis ts || (isMark "::" ts && isGroup .parenthesis (ts.drop 2))

def signature : Parser Unit := do
  let _ ← mark? "::"
  let _ ← inside .parenthesis (terminated (g.typeExpr true))
  let _ ← g.returnType false

def withSignature (p : Path) : Parser Path := do
  match p.last.arguments with
  | .none =>
    if ← ahead isSignature then
      g.signature
      let last : Segment := ⟨p.last.name, .signature⟩
      if p.others.isEmpty then return { p with first := last }
      else return { p with others := p.others.dropLast ++ [last] }
    else return p
  | _ => return p

end ApiDoc.Source.Grammar
