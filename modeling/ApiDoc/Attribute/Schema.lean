import ApiDoc.Attribute.Vocabulary
import ApiDoc.Note

/-!
# Schema notes in attributes
-/

set_option autoImplicit false

namespace ApiDoc.Attribute

def externalDocs : Vocabulary ExternalDocsNote := ⟨"external_docs", {}, [
  .text "url" fun n v => { n with url := v },
  .text "description" fun n v => { n with description := some v }]⟩

def extensionNote : Vocabulary ExtensionNote := ⟨"extension", {}, [
  .text "name" fun n v => { n with name := v },
  .anyText "value" fun n v => { n with value := v },
  .flag "parse_value" fun n v => { n with parsed := v }]⟩

def mappingParts : Vocabulary (Option String × Option TypeExpr) :=
  ⟨"discriminator_mapping", (none, none), [
    .text "value" fun n v => (some v, n.2),
    .type "schema" fun n v => (n.1, some v)]⟩

def mapping : Arguments MappingNote := do
  match ← mappingParts.nested with
  | (some value, some type) => return ⟨value, type⟩
  | _ => throw .incompleteMapping

def schema : Vocabulary SchemaNote := ⟨"schema", {}, [
  .text "name" fun n v => { n with name := some v },
  .text "title" fun n v => { n with title := some v },
  .text "description" fun n v => { n with description := some v },
  .text "type" fun n v => { n with type := some v },
  .text "format" fun n v => { n with format := some v },
  .type "implementation" fun n v => { n with implementation := some v },
  .text "ref" fun n v => { n with reference := some v },
  .anyText "minimum" fun n v => { n with minimum := some v },
  .anyText "maximum" fun n v => { n with maximum := some v },
  .anyText "multiple_of" fun n v => { n with multipleOf := some v },
  .flag "exclusive_minimum" fun n v => { n with exclusiveMinimum := some v },
  .flag "exclusive_maximum" fun n v => { n with exclusiveMaximum := some v },
  .natural "min_length" fun n v => { n with minLength := some v },
  .natural "max_length" fun n v => { n with maxLength := some v },
  .text "pattern" fun n v => { n with pattern := some v },
  .natural "min_items" fun n v => { n with minItems := some v },
  .natural "max_items" fun n v => { n with maxItems := some v },
  .flag "unique_items" fun n v => { n with uniqueItems := some v },
  .natural "min_properties" fun n v => { n with minProperties := some v },
  .natural "max_properties" fun n v => { n with maxProperties := some v },
  .texts "enumeration" fun n v => { n with enumeration := v },
  .texts "allowable_values" fun n v => { n with enumeration := v },
  .flag "nullable" fun n v => { n with nullable := some v },
  .flag "read_only" fun n v => { n with readOnly := some v },
  .flag "write_only" fun n v => { n with writeOnly := some v },
  .flag "deprecated" fun n v => { n with deprecated := some v },
  .anyText "default" fun n v => { n with default := some v },
  .anyText "example" fun n v => { n with sample := some v },
  .flag "required" fun n v => { n with required := some v },
  .flag "hidden" fun n v => { n with hidden := v },
  .types "one_of" fun n v => { n with oneOf := v },
  .types "any_of" fun n v => { n with anyOf := v },
  .types "all_of" fun n v => { n with allOf := v },
  .type "not" fun n v => { n with negated := some v },
  .text "discriminator_property" fun n v => { n with discriminator := some v },
  .of mapping "discriminator_mapping" fun n v => { n with mapping := n.mapping ++ [v] },
  externalDocs.under "external_docs" fun n v => { n with externalDocs := some v },
  extensionNote.under "extension" fun n v => { n with extensions := n.extensions ++ [v] }]⟩

def schemaOf (attributes : List Attribute) : Except Fault (Option SchemaNote) :=
  (attributes.filter fun a => a.name = "schema").foldlM
    (fun found a => some <$> schema.extend (found.getD {}) a) none

def isDeprecated (attributes : List Attribute) : Bool :=
  attributes.any fun a => a.isNamed "deprecated"

end ApiDoc.Attribute
