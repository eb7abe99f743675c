import ApiDoc.Record
import ApiDoc.Document.Schema

/-!
# The JSON form of schemas

Field order is the order of writing. The keywords of a schema and its
subschemas interleave in the form although they are kept apart in the type.
-/

set_option autoImplicit false

namespace ApiDoc

namespace SchemaType

def codec : Codec SchemaType := .word name all

end SchemaType

namespace ExternalDocs

def form : Record ExternalDocs where
  blank := {}
  fields := [
    ⟨"url", .always .text, (·.url), fun r v => { r with url := v }⟩,
    ⟨"description", .optional .text, (·.description), fun r v => { r with description := v }⟩]
  rest := .extensions (·.extensions) fun r v => { r with extensions := v }

def codec : Codec ExternalDocs := form.codec

end ExternalDocs

namespace Discriminator

def form : Record Discriminator where
  blank := {}
  fields := [
    ⟨"propertyName", .always .text, (·.propertyName), fun r v => { r with propertyName := v }⟩,
    ⟨"mapping", .table .text, (·.mapping), fun r v => { r with mapping := v }⟩]
  rest := .dropped

/-- The two fields may also be given by position. -/
def codec : Codec Discriminator where
  encode := form.encode
  decode d :=
    match d with
    | .list [] => some {}
    | .list [name] => name.text?.map fun s => { propertyName := s }
    | .list [name, mapping] => do
      pure { propertyName := ← name.text?, mapping := ← (Codec.table .text).decode mapping }
    | d => form.decode d

end Discriminator

namespace Additional

/-- A boolean, else a schema, read as free-form data first. -/
def codec {α : Type} (c : Codec α) : Codec (Additional α) where
  encode
    | .allowed b => .bool b
    | .schema s => c.encode s
  decode d := d.settled.bind fun d =>
    match d with
    | .bool b => some (.allowed b)
    | d => (c.decode d).map .schema

end Additional

namespace Keywords

def headings : List (Field Keywords) := [
  ⟨"title", .optional .text, (·.title), fun r v => { r with title := v }⟩,
  ⟨"type", .optional SchemaType.codec, (·.type), fun r v => { r with type := v }⟩,
  ⟨"format", .optional .text, (·.format), fun r v => { r with format := v }⟩,
  ⟨"description", .optional .text, (·.description), fun r v => { r with description := v }⟩]

def bounds : List (Field Keywords) := [
  ⟨"multipleOf", .optional .number, (·.multipleOf), fun r v => { r with multipleOf := v }⟩,
  ⟨"maximum", .optional .number, (·.maximum), fun r v => { r with maximum := v }⟩,
  ⟨"exclusiveMaximum", .optional .flag, (·.exclusiveMaximum),
    fun r v => { r with exclusiveMaximum := v }⟩,
  ⟨"minimum", .optional .number, (·.minimum), fun r v => { r with minimum := v }⟩,
  ⟨"exclusiveMinimum", .optional .flag, (·.exclusiveMinimum),
    fun r v => { r with exclusiveMinimum := v }⟩,
  ⟨"maxLength", .optional .natural, (·.maxLength), fun r v => { r with maxLength := v }⟩,
  ⟨"minLength", .optional .natural, (·.minLength), fun r v => { r with minLength := v }⟩,
  ⟨"pattern", .optional .text, (·.pattern), fun r v => { r with pattern := v }⟩,
  ⟨"maxItems", .optional .natural, (·.maxItems), fun r v => { r with maxItems := v }⟩,
  ⟨"minItems", .optional .natural, (·.minItems), fun r v => { r with minItems := v }⟩,
  ⟨"uniqueItems", .optional .flag, (·.uniqueItems), fun r v => { r with uniqueItems := v }⟩,
  ⟨"maxProperties", .optional .natural, (·.maxProperties),
    fun r v => { r with maxProperties := v }⟩,
  ⟨"minProperties", .optional .natural, (·.minProperties),
    fun r v => { r with minProperties := v }⟩,
  ⟨"required", .list .text, (·.required), fun r v => { r with required := v }⟩,
  ⟨"enum", .list .value, (·.enumeration), fun r v => { r with enumeration := v }⟩]

def notes : List (Field Keywords) := [
  ⟨"discriminator", .optional Discriminator.codec, (·.discriminator),
    fun r v => { r with discriminator := v }⟩,
  ⟨"nullable", .optional .flag, (·.nullable), fun r v => { r with nullable := v }⟩,
  ⟨"readOnly", .optional .flag, (·.readOnly), fun r v => { r with readOnly := v }⟩,
  ⟨"writeOnly", .optional .flag, (·.writeOnly), fun r v => { r with writeOnly := v }⟩,
  ⟨"deprecated", .optional .flag, (·.deprecated), fun r v => { r with deprecated := v }⟩,
  ⟨"default", .optional .value, (·.default), fun r v => { r with default := v }⟩,
  ⟨"example", .optional .value, (·.sample), fun r v => { r with sample := v }⟩,
  ⟨"externalDocs", .optional ExternalDocs.codec, (·.externalDocs),
    fun r v => { r with externalDocs := v }⟩]

end Keywords

namespace Schema

def keyword (f : Field Keywords) : Field Schema where
  name := f.name
  cell := f.cell
  get s := f.get s.keywords
  set s v := { s with keywords := f.set s.keywords v }

def subschemas (inner : Codec Schema) : List (Field Schema) := [
  ⟨"items", .optional inner, (·.items), fun r v => { r with items := v }⟩,
  ⟨"properties", .table inner, (·.properties), fun r v => { r with properties := v }⟩,
  ⟨"additionalProperties", .optional (Additional.codec inner), (·.additional),
    fun r v => { r with additional := v }⟩,
  ⟨"allOf", .list inner, (·.allOf), fun r v => { r with allOf := v }⟩,
  ⟨"anyOf", .list inner, (·.anyOf), fun r v => { r with anyOf := v }⟩,
  ⟨"oneOf", .list inner, (·.oneOf), fun r v => { r with oneOf := v }⟩,
  ⟨"not", .optional inner, (·.negated), fun r v => { r with negated := v }⟩]

def form (inner : Codec Schema) : Record Schema where
  blank := {}
  fields := [⟨"$ref", .optional .text, (·.reference), fun r v => { r with reference := v }⟩]
    ++ (Keywords.headings ++ Keywords.bounds).map keyword ++ subschemas inner
    ++ Keywords.notes.map keyword
  rest := .extensions (·.keywords.extensions)
    fun r v => { r with keywords := { r.keywords with extensions := v } }

def codecWithin : Nat → Codec Schema
  | 0 => .never
  | n + 1 => (form (codecWithin n)).codec

def toJson (s : Schema) : Json := (codecWithin s.height).encode s

def ofDatum? (d : Datum) : Option Schema := (codecWithin (d.height + 1)).decode d

def codec : Codec Schema := ⟨toJson, ofDatum?⟩

end Schema

end ApiDoc
