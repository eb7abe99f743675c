import ApiDoc.Source.Grammar.Declared
import ApiDoc.Source.Grammar.Member

/-!
# Items

Every item is noted with the items nested in it. An item in a form of its own,
such as a function without a body, declares nothing and is passed over.
-/

set_option autoImplicit false

namespace ApiDoc.Source.Grammar

open Source.Parser Source.Trees

variable (g : Grammar)

abbrev Draft := List Item → Option Item

def draft (item : Item) : Draft := fun _ => some item

def passing : Draft := fun nested => some (.other [] nested)

def hidden : Draft := fun _ => none

def functionItem (attributes : List Attribute) : Parser Draft := do
  let _ ← visibility
  match ← g.method? attributes with
  | some f => return fun nested => some (.function f nested)
  | none => return hidden

/-! ## Implementations and traits -/

def startsGenerics (ts : Trees) : Bool :=
  isMark "<" ts &&
    (isAny [isMark ">", isMark "#", isWord "const"] (ts.drop 1)
      || (isAny [isLifetime, isName] (ts.drop 1)
        && (isAny [isMark ",", isMark ">", isMark "="] (ts.drop 2)
          || (isMark ":" (ts.drop 2) && !isMark "::" (ts.drop 2)))))

def isUnqualified : TypeForm → Bool
  | .path p => !p.qualified
  | _ => false

def constImplementation : Parser Bool := do
  if ← keyword? "const" then return true
  else if (← ahead (isMark "?")) && (← beyond 1 (isWord "const")) then
    drop 2
    return true
  else return false

/-- An implementation; it is passed over if it has a visibility, is constant, or
is of something that is no trait. -/
def implementationItem (attributes : List Attribute) : Parser Draft := do
  let visible ← visibility
  let _ ← keyword? "default"
  let _ ← keyword? "unsafe"
  keyword "impl"
  if ← ahead startsGenerics then
    let _ ← g.generics
  let const ← constImplementation
  let negative := (← ahead (isMark "!")) && !(← beyond 1 (isGroup .brace))
  if negative then drop 1
  let first ← g.type true
  let ofTrait ← keyword? "for"
  let self ←
    if ofTrait then g.typeExpr true
    else pure (if negative then unknownType else first.typeExpr)
  g.whereClause
  let (inner, members) ← inside .brace do
    let inner ← g.innerAttributes
    return (inner, ← repeatToEnd g.implementationMember)
  if visible || const || (ofTrait && !isUnqualified first) then return hidden
  else return fun nested =>
    some (.implementation (attributes ++ inner) self (members.filterMap id) nested)

def traitItem (attributes : List Attribute) : Parser Draft := do
  let _ ← visibility
  let marked := (← keyword? "unsafe") || (← ahead (isWord "auto"))
  let _ ← keyword? "auto"
  keyword "trait"
  let _ ← name
  let _ ← g.generics
  if !marked && (← mark? "=") then
    let _ ← g.boundChain (isAny [isWord "where", isMark ";"])
    g.whereClause
    mark ";"
    return passing
  else
    if ← mark? ":" then
      let _ ← g.boundChain (isAny [isWord "where", isGroup .brace])
    g.whereClause
    let inner ← inside .brace do
      let inner ← g.innerAttributes
      let _ ← repeatToEnd g.traitMember
      return inner
    return fun nested => some (.other (attributes ++ inner) nested)

/-! ## Modules and imports -/

def moduleItem (attributes : List Attribute) : Parser Draft := do
  let _ ← visibility
  let _ ← keyword? "unsafe"
  keyword "mod"
  let _ ← if ← ahead (isWord "try") then anyWord else name
  if ← mark? ";" then return fun nested => some (.other attributes nested)
  else
    let inner ← inside .brace do
      let inner ← g.innerAttributes
      let _ ← repeatToEnd g.item
      return inner
    return fun nested => some (.other (attributes ++ inner) nested)

def foreignModule : Parser Unit := do
  let _ ← keyword? "unsafe"
  keyword "extern"
  if ← ahead isText then drop 1
  inside .brace do
    let _ ← g.innerAttributes
    let _ ← repeatToEnd g.foreignMember

def otherName : Parser Unit := do
  if ← keyword? "as" then
    if !(← keyword? "_") then
      let _ ← name

def externalCrate : Parser Unit := do
  keyword "extern"
  keyword "crate"
  let _ ← if ← ahead (isWord "self") then anyWord else name
  otherName
  mark ";"

def importFrom : Nat → Parser Unit
  | 0 => failure
  | fuel + 1 => do
    if ← mark? "*" then return ()
    else if ← ahead (isGroup .brace) then
      let _ ← inside .brace <| terminated do
        let _ ← mark? "::"
        importFrom fuel
    else
      guard (← ahead (isAny [isPathWord, isWord "try"]))
      let _ ← anyWord
      if ← mark? "::" then importFrom fuel else otherName

def importItem : Parser Unit := do
  keyword "use"
  let _ ← mark? "::"
  importFrom (Tree.weightList (← get).trees + 1)
  mark ";"

/-! ## Values and names -/

def staticItem (attributes : List Attribute) : Parser Draft := do
  keyword "static"
  let _ ← keyword? "mut"
  let _ ← name
  let typed ← mark? ":"
  if typed then
    let _ ← g.typeExpr true
  let valued ← mark? "="
  if valued then
    let _ ← g.expr true
  mark ";"
  guard (typed || valued)
  return if typed && valued then fun nested => some (.other attributes nested) else hidden

def constItem (attributes : List Attribute) : Parser Draft := do
  let (plain, valued) ← g.constant?
  return if plain && valued then fun nested => some (.other attributes nested) else hidden

def macroDeclaration : Parser Unit := do
  keyword "macro"
  let _ ← name
  if ← ahead (isGroup .parenthesis) then drop 1
  guard (← ahead (isGroup .brace))
  drop 1

def isMacroPath : Trees → Bool :=
  isAny [isName, isWord "self", isWord "super", isWord "crate", isMark "::"]

/-! ## Any item -/

def itemBehind (attributes : List Attribute) (start next : Trees) : Parser Draft := do
  let back : Parser Unit := modify fun c => { c with trees := start }
  let afterUnsafe := if isWord "unsafe" next then next.drop 1 else next
  if isSignatureStart next then
    back
    g.functionItem attributes
  else if isWord "extern" next && isWord "crate" (next.drop 1) then
    externalCrate
    return passing
  else if isWord "extern" afterUnsafe then
    g.foreignModule
    return passing
  else if isWord "use" next then
    importItem
    return passing
  else if isWord "static" next then g.staticItem attributes
  else if isWord "const" next then g.constItem attributes
  else if isWord "trait" afterUnsafe
      || (isWord "auto" afterUnsafe && isWord "trait" (afterUnsafe.drop 1)) then
    back
    g.traitItem attributes
  else if isWord "mod" afterUnsafe then
    back
    g.moduleItem attributes
  else if isWord "impl" afterUnsafe
      || (isWord "default" next && !isMark "!" (next.drop 1)) then
    back
    g.implementationItem attributes
  else if isWord "type" next then
    g.associatedType
    return passing
  else if isWord "struct" next then return draft (← g.structItem attributes)
  else if isWord "enum" next then return draft (← g.enumItem attributes)
  else if isWord "union" next && isName (next.drop 1) then
    g.unionItem
    return passing
  else if isWord "macro" next then
    macroDeclaration
    return hidden
  else
    guard (start.length = next.length && isMacroPath next)
    macroItem
    return passing

def anyItem : Parser Unit := do
  let (make, nested) ← collecting do
    let attributes ← g.outerAttributes
    let start := (← get).trees
    let _ ← visibility
    g.itemBehind attributes start (← get).trees
  match make nested with
  | some item => note item
  | none => pure ()

end ApiDoc.Source.Grammar
