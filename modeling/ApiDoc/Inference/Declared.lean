import ApiDoc.Inference.Arena
import ApiDoc.Document.Overlay
import ApiDoc.Node.Basic

/-!
# Schemas that notes declare

`declared` is what a note says, `merge` lays it over a schema. Both are given
the inference of types, since notes name schemas by types.
-/

set_option autoImplicit false

namespace ApiDoc

namespace Inference

def each (infer : TypeExpr → Gen Schema) : List TypeExpr → Gen (List Schema)
  | [] => pure []
  | t :: ts => do
    let s ← infer t
    let rest ← each infer ts
    pure (s :: rest)

/-- A type that has no component is referred to by its flat name. -/
def mapping (infer : TypeExpr → Gen Schema) (m : Ordered String) :
    List MappingNote → Gen (Ordered String)
  | [] => pure m
  | n :: ns => do
    let target ← infer n.type
    let reference := target.reference.getD (ComponentKind.schemas.pointer n.type.flatName)
    mapping infer (m.put n.value reference) ns

def keywords (n : SchemaNote) (hint : Option SchemaType) : Except Failure Keywords := do
  let multipleOf ← Literal.bound? "multipleOf" n.multipleOf
  let maximum ← Literal.bound? "maximum" n.maximum
  let minimum ← Literal.bound? "minimum" n.minimum
  let extensions ← Literal.extensions n.extensions
  pure {
    title := n.title
    type := if n.type.isSome then hint else none
    format := n.format
    description := n.description
    multipleOf := multipleOf
    maximum := maximum
    exclusiveMaximum := n.exclusiveMaximum
    minimum := minimum
    exclusiveMinimum := n.exclusiveMinimum
    maxLength := n.maxLength
    minLength := n.minLength
    pattern := n.pattern
    maxItems := n.maxItems
    minItems := n.minItems
    uniqueItems := n.uniqueItems
    maxProperties := n.maxProperties
    minProperties := n.minProperties
    enumeration := n.enumeration.map (Literal.value hint)
    nullable := n.nullable
    readOnly := n.readOnly
    writeOnly := n.writeOnly
    deprecated := n.deprecated
    default := n.default.map (Literal.value hint)
    sample := n.sample.map (Literal.value hint)
    externalDocs := n.externalDocs.map (·.node)
    extensions := extensions }

def whereNamed (infer : TypeExpr → Gen Schema) : Option TypeExpr → Gen (Option Schema)
  | none => pure none
  | some t => do
    let s ← infer t
    pure (some s)

def discriminator (infer : TypeExpr → Gen Schema) (n : SchemaNote) : Gen (Option Discriminator) :=
  match n.discriminator with
  | none => pure none
  | some propertyName => do
    let mapping ← mapping infer {} n.mapping
    pure (some { propertyName, mapping })

def declared (infer : TypeExpr → Gen Schema) (n : SchemaNote) (hint : Option SchemaType) :
    Gen Schema := do
  let k ← Gen.check (keywords n hint)
  let oneOf ← each infer n.oneOf
  let anyOf ← each infer n.anyOf
  let allOf ← each infer n.allOf
  let negated ← whereNamed infer n.negated
  let discriminator ← discriminator infer n
  pure { keywords := { k with discriminator := discriminator }, oneOf, anyOf, allOf, negated }

def pointsElsewhere (reference : String) : Bool :=
  reference.startsWith "#/components/" && !reference.startsWith "#/components/schemas/"

def typeHint (s : Schema) (n : SchemaNote) : Except Failure (Option SchemaType) :=
  match n.type with
  | some word => (SchemaType.ofWord word).map some
  | none => .ok s.keywords.type

def merge (infer : TypeExpr → Gen Schema) (s : Schema) (n : SchemaNote) : Gen Schema :=
  match n.reference with
  | some r => if pointsElsewhere r then Gen.fail (.notASchema r) else pure (Schema.refTo r)
  | none => do
    let hint ← Gen.check (typeHint s n)
    let upper ← declared infer n hint
    pure (s.declare upper)

def explicit (infer : TypeExpr → Gen Schema) (n : SchemaNote) : Gen Schema :=
  match n.reference, n.implementation with
  | none, some t => do
    let base ← infer t
    merge infer base n
  | _, _ => merge infer {} n

def member (infer : TypeExpr → Gen Schema) (t : TypeExpr) : Option SchemaNote → Gen Schema
  | none => infer t
  | some n =>
    if n.replacesInference then explicit infer n
    else do
      let inferred ← infer t
      merge infer inferred n

end Inference

end ApiDoc
