import ApiDoc.Document.Schema

/-!
# Declared keywords over inferred ones

Laying one schema over another, every keyword that the upper one declares
replaces the lower one; `allOf` and extensions are added to what is there.
-/

set_option autoImplicit false

namespace ApiDoc

def orList {α : Type} (upper lower : List α) : List α := if upper.isEmpty then lower else upper

namespace Keywords

def overlay (lower upper : Keywords) : Keywords where
  title := upper.title.or lower.title
  type := upper.type.or lower.type
  format := upper.format.or lower.format
  description := upper.description.or lower.description
  multipleOf := upper.multipleOf.or lower.multipleOf
  maximum := upper.maximum.or lower.maximum
  exclusiveMaximum := upper.exclusiveMaximum.or lower.exclusiveMaximum
  minimum := upper.minimum.or lower.minimum
  exclusiveMinimum := upper.exclusiveMinimum.or lower.exclusiveMinimum
  maxLength := upper.maxLength.or lower.maxLength
  minLength := upper.minLength.or lower.minLength
  pattern := upper.pattern.or lower.pattern
  maxItems := upper.maxItems.or lower.maxItems
  minItems := upper.minItems.or lower.minItems
  uniqueItems := upper.uniqueItems.or lower.uniqueItems
  maxProperties := upper.maxProperties.or lower.maxProperties
  minProperties := upper.minProperties.or lower.minProperties
  required := orList upper.required lower.required
  enumeration := orList upper.enumeration lower.enumeration
  discriminator := upper.discriminator.or lower.discriminator
  nullable := upper.nullable.or lower.nullable
  readOnly := upper.readOnly.or lower.readOnly
  writeOnly := upper.writeOnly.or lower.writeOnly
  deprecated := upper.deprecated.or lower.deprecated
  default := upper.default.or lower.default
  sample := upper.sample.or lower.sample
  externalDocs := upper.externalDocs.or lower.externalDocs
  extensions := lower.extensions.putAll upper.extensions.entries

end Keywords

namespace Schema

def overlay (lower upper : Schema) : Schema :=
  { lower with
    keywords := lower.keywords.overlay upper.keywords
    negated := upper.negated.or lower.negated
    allOf := lower.allOf ++ upper.allOf
    anyOf := orList upper.anyOf lower.anyOf
    oneOf := orList upper.oneOf lower.oneOf }

/-- Keywords beside a reference would be ignored, so the reference moves into
`allOf` first. -/
def declare (s upper : Schema) : Schema :=
  if upper.isBlank then s
  else if s.reference.isSome then overlay { allOf := [s] } upper
  else overlay s upper

end Schema

end ApiDoc
