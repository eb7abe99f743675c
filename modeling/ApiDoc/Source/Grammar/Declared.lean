import ApiDoc.Source.Grammar.Function

/-!
# Structs, enums and their fields
-/

set_option autoImplicit false

namespace ApiDoc.Source.Grammar

open Source.Parser Source.Trees

variable (g : Grammar)

def namedField : Parser NamedField := do
  let attributes ← g.outerAttributes
  let _ ← visibility
  let word ← if ← ahead (isWord "_") then anyWord else name
  mark ":"
  return ⟨attributes, word, ← g.typeExpr true⟩

def namedFields : Parser (List NamedField) := inside .brace (terminated g.namedField)

def tupleField : Parser TypeExpr := do
  let _ ← g.outerAttributes
  let _ ← visibility
  g.typeExpr true

def tupleFields : Parser (List TypeExpr) := inside .parenthesis (terminated g.tupleField)

def structFields : Parser Fields := do
  if ← ahead (isGroup .parenthesis) then
    let members ← g.tupleFields
    g.whereClause
    mark ";"
    return .tuple members
  else
    g.whereClause
    if ← ahead (isGroup .brace) then return .named (← g.namedFields)
    else
      mark ";"
      return .unit

def variant : Parser Variant := do
  let attributes ← g.outerAttributes
  let _ ← visibility
  let word ← name
  let fields ←
    if ← ahead (isGroup .brace) then pure (Fields.named (← g.namedFields))
    else if ← ahead (isGroup .parenthesis) then pure (Fields.tuple (← g.tupleFields))
    else pure Fields.unit
  if ← mark? "=" then
    let _ ← g.expr true
  return ⟨attributes, word, fields⟩

def structItem (attributes : List Attribute) : Parser Item := do
  keyword "struct"
  let word ← name
  let parameters ← g.generics
  return .struct attributes word parameters (← g.structFields)

def enumItem (attributes : List Attribute) : Parser Item := do
  keyword "enum"
  let word ← name
  let parameters ← g.generics
  g.whereClause
  return .enum attributes word parameters (← inside .brace (terminated g.variant))

def unionItem : Parser Unit := do
  keyword "union"
  let _ ← name
  let _ ← g.generics
  g.whereClause
  let _ ← g.namedFields

end ApiDoc.Source.Grammar
