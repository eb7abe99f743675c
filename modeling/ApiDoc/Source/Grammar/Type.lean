import ApiDoc.Source.Grammar.Path

/-!
# Types, bounds and generics

A type is read as the last segment of its path with its type arguments.
References, pointers and parentheses add nothing; of several bounds the first
trait counts.
-/

set_option autoImplicit false

namespace ApiDoc.Source.Grammar

open Source.Parser Source.Trees

variable (g : Grammar)

/-! ## Bounds -/

def captures : Parser Unit := do
  keyword "use"
  mark "<"
  let _ ← separated (isMark ">") "," do
    if ← ahead isLifetime then lifetime
    else
      guard (← ahead (isAny [isName, isWord "Self"]))
      let _ ← anyWord
  mark ">"

def constness (allowed : Bool) : Parser Bool := do
  if (← ahead (isGroup .bracket)) && allowed then
    inside .bracket (keyword "const")
    return true
  else if (← ahead (isMark "~")) && (← beyond 1 (isWord "const")) then
    mark "~"
    keyword "const"
    return true
  else if (← ahead (isWord "const")) && allowed then
    keyword "const"
    return true
  else return false

def traitBound (consts : Bool) : Parser Bound := do
  let early ← g.boundLifetimes?
  let const ← constness consts
  if (← mark? "?") && !early then
    let _ ← g.boundLifetimes?
  let p ← g.withSignature (← g.unqualifiedPath false)
  return if const then .constantTrait else .trait p.typeExpr

def boundForm (capturing consts : Bool) : Parser Bound := do
  if ← lifetime? then return .other
  else if ← ahead (isWord "use") then
    guard capturing
    captures
    return .other
  else if ← ahead (isGroup .parenthesis) then inside .parenthesis (g.traitBound consts)
  else g.traitBound consts

def startsBound (consts : Bool) (ts : Trees) : Bool :=
  isAny [isAnyWord, isMark "::", isMark "?", isLifetime, isGroup .parenthesis] ts
    || (consts && isGroup .bracket ts)

def boundsFrom (capturing consts plus : Bool) : Nat → Parser (List Bound)
  | 0 => failure
  | fuel + 1 => do
    let b ← g.bound capturing consts
    if plus && (← mark? "+") then
      if ← ahead (startsBound consts) then
        return b :: (← boundsFrom capturing consts plus fuel)
      else return [b]
    else return [b]

def boundList (capturing consts plus : Bool) : Parser (List Bound) := do
  g.boundsFrom capturing consts plus ((← get).trees.length + 1)

def traitList (capturing consts plus : Bool) : Parser TypeExpr := do
  let bounds ← g.boundList capturing consts plus
  guard (bounds.any Bound.isTrait)
  return Bound.firstTrait bounds

/-! ## Function types -/

def isNamedArgument (ts : Trees) : Bool :=
  isAny [isName, isWord "_", isWord "self"] ts && isMark ":" (ts.drop 1)
    && !isMark "::" (ts.drop 1)

def functionArgument : Parser Unit := do
  let _ ← g.outerAttributes
  if ← mark? "..." then pure ()
  else
    let mutable ← keyword? "mut"
    if ← ahead isNamedArgument then
      let _ ← anyWord
      mark ":"
      if ← mark? "..." then pure ()
      else
        let _ ← g.typeExpr true
    else if mutable then keyword "self"
    else
      let _ ← g.typeExpr true

def convention : Parser Unit := do
  if ← keyword? "extern" then
    if ← ahead isText then drop 1

def functionType : Parser Unit := do
  let _ ← keyword? "unsafe"
  convention
  keyword "fn"
  let _ ← inside .parenthesis (terminated g.functionArgument)
  let _ ← g.returnType false

/-! ## Types -/

def moreBounds (first : Bound) : Parser TypeForm := do
  if ← mark? "+" then
    if ← ahead (startsBound false) then
      return .traits (first :: (← g.boundList false false true)) false
    else return .traits [first] true
  else return .traits [first] false

def tupleRest (first : TypeExpr) : Parser TypeForm := do
  mark ","
  let others ← terminated (g.typeExpr true)
  return .whole ⟨TypeExpr.tupleName, first :: others⟩

def parenthesised : Parser (TypeForm × Bool) := inside .parenthesis do
  if ← atEnd then return (.whole TypeExpr.unit, false)
  else if ← ahead isLifetime then
    return (.whole (← g.typeExpr true), false)
  else if ← ahead (isMark "?") then
    return (.whole (Bound.firstTrait (← g.boundList false false true)), false)
  else
    let first ← g.type true
    if ← ahead (isMark ",") then return (← g.tupleRest first.typeExpr, false)
    else return (first, true)

def parenthesisedType (plus : Bool) : Parser TypeForm := do
  let (form, alone) ← g.parenthesised
  if alone && plus && (← ahead (isMark "+")) then
    match form with
    | .path p => if p.qualified then return .whole p.typeExpr else g.moreBounds (.trait p.typeExpr)
    | .traits [b] false => g.moreBounds b
    | _ => return .whole form.typeExpr
  else return .whole form.typeExpr

def pathType (introduced plus : Bool) : Parser TypeForm := do
  let p ← g.withSignature (← g.path false)
  if p.qualified then return .path p
  else if (← ahead (isMark "!")) && !(← ahead (isMark "!=")) && p.isPlain then
    mark "!"
    let _ ← anyGroup
    return .whole unknownType
  else if plus && (← ahead (isMark "+")) then g.moreBounds (.trait p.typeExpr)
  else if introduced then return .traits [.trait p.typeExpr] false
  else return .path p

def pointerType : Parser TypeForm := do
  mark "*"
  if !(← keyword? "const") then keyword "mut"
  return .whole (← g.typeExpr false)

def referenceType : Parser TypeForm := do
  mark "&"
  let _ ← lifetime?
  let _ ← keyword? "mut"
  return .whole (← g.typeExpr false)

def listType : Parser TypeForm := inside .bracket do
  let element ← g.typeExpr true
  if ← mark? ";" then
    let _ ← g.expr true
  return .whole ⟨TypeExpr.sliceName, [element]⟩

def isFunctionType : Trees → Bool := isAny [isWord "fn", isWord "unsafe", isWord "extern"]

def isPathType : Trees → Bool :=
  isAny [isName, isWord "super", isWord "self", isWord "Self", isWord "crate", isMark "::",
    isMark "<"]

def introducedType (plus : Bool) : Parser TypeForm := do
  g.boundLifetimes
  if ← ahead isFunctionType then
    g.functionType
    return .whole unknownType
  else
    guard (← ahead isPathWord)
    g.pathType true plus

def typeForm (plus : Bool) : Parser TypeForm := do
  let next := (← get).trees
  if isWord "for" next then g.introducedType plus
  else if isGroup .parenthesis next then g.parenthesisedType plus
  else if isFunctionType next then
    g.functionType
    return .whole unknownType
  else if isPathType next then g.pathType false plus
  else if isWord "dyn" next then
    keyword "dyn"
    let raw ← mark? "*"
    let t ← g.traitList false false plus
    return .whole (if raw then unknownType else t)
  else if isGroup .bracket next then g.listType
  else if isMark "*" next then g.pointerType
  else if isMark "&" next then g.referenceType
  else if isMark "!" next then
    mark "!"
    return .whole unknownType
  else if isWord "impl" next then
    keyword "impl"
    return .whole (← g.traitList true true plus)
  else if isWord "_" next then
    keyword "_"
    return .whole unknownType
  else if isLifetime next then return .whole (← g.traitList false false true)
  else failure

/-! ## Generics -/

def lifetimeBounds (stop : Trees → Bool) : Parser Unit := do
  let _ ← chain stop "+" lifetime

def genericParameter : Parser (Option String) := do
  let _ ← g.outerAttributes
  if ← lifetime? then
    if ← mark? ":" then lifetimeBounds (isAny [isMark ",", isMark ">"])
    return none
  else if ← ahead isName then
    let parameter ← name
    if ← mark? ":" then
      let _ ← g.boundChain (isAny [isMark ",", isMark ">", isMark "="])
    if ← mark? "=" then
      let _ ← g.typeExpr true
    return some parameter
  else if ← keyword? "const" then
    let _ ← name
    mark ":"
    let _ ← g.typeExpr true
    if ← mark? "=" then g.constant
    return none
  else
    keyword "_"
    return some "_"

def generics : Parser (List String) := do
  if ← mark? "<" then
    let parameters ← separated (isMark ">") "," g.genericParameter
    mark ">"
    return parameters.filterMap id
  else return []

def endsWhere (ts : Trees) : Bool :=
  isAny [List.isEmpty, isGroup .brace, isMark ",", isMark ";", isMark "="] ts
    || (isMark ":" ts && !isMark "::" ts)

def predicate : Parser Unit := do
  if (← ahead isLifetime) && (← beyond 1 (isMark ":")) then
    lifetime
    mark ":"
    lifetimeBounds endsWhere
  else
    let _ ← g.boundLifetimes?
    let _ ← g.typeExpr true
    mark ":"
    let _ ← g.boundChain endsWhere

def whereClause : Parser Unit := do
  if ← keyword? "where" then
    let _ ← chain endsWhere "," g.predicate

end ApiDoc.Source.Grammar
