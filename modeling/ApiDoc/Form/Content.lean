import ApiDoc.Form.Schema
import ApiDoc.Document.Content

/-!
# The JSON form of payloads
-/

set_option autoImplicit false

namespace ApiDoc

namespace ParameterLocation

def codec : Codec ParameterLocation := .word name all

end ParameterLocation

namespace ParameterStyle

def codec : Codec ParameterStyle := .word name all

end ParameterStyle

namespace Example

def form : Record Example where
  blank := {}
  fields := [
    ⟨"$ref", .optional .text, (·.reference), fun r v => { r with reference := v }⟩,
    ⟨"summary", .optional .text, (·.summary), fun r v => { r with summary := v }⟩,
    ⟨"description", .optional .text, (·.description), fun r v => { r with description := v }⟩,
    ⟨"value", .optional .value, (·.value), fun r v => { r with value := v }⟩,
    ⟨"externalValue", .optional .text, (·.externalValue), fun r v => { r with externalValue := v }⟩]
  rest := .extensions (·.extensions) fun r v => { r with extensions := v }

def codec : Codec Example := form.codec

end Example

namespace HeaderOf

def form {media : Type} (inner : Codec media) : Record (HeaderOf media) where
  blank := {}
  fields := [
    ⟨"$ref", .optional .text, (·.reference), fun r v => { r with reference := v }⟩,
    ⟨"description", .optional .text, (·.description), fun r v => { r with description := v }⟩,
    ⟨"required", .optional .flag, (·.required), fun r v => { r with required := v }⟩,
    ⟨"deprecated", .optional .flag, (·.deprecated), fun r v => { r with deprecated := v }⟩,
    ⟨"allowEmptyValue", .optional .flag, (·.allowEmptyValue),
      fun r v => { r with allowEmptyValue := v }⟩,
    ⟨"style", .optional ParameterStyle.codec, (·.style), fun r v => { r with style := v }⟩,
    ⟨"explode", .optional .flag, (·.explode), fun r v => { r with explode := v }⟩,
    ⟨"schema", .optional Schema.codec, (·.schema), fun r v => { r with schema := v }⟩,
    ⟨"example", .optional .value, (·.sample), fun r v => { r with sample := v }⟩,
    ⟨"examples", .table Example.codec, (·.examples), fun r v => { r with examples := v }⟩,
    ⟨"content", .table inner, (·.content), fun r v => { r with content := v }⟩]
  rest := .extensions (·.extensions) fun r v => { r with extensions := v }

end HeaderOf

namespace EncodingOf

def form {media : Type} (inner : Codec media) : Record (EncodingOf media) where
  blank := {}
  fields := [
    ⟨"contentType", .optional .text, (·.contentType), fun r v => { r with contentType := v }⟩,
    ⟨"headers", .table (HeaderOf.form inner).codec, (·.headers),
      fun r v => { r with headers := v }⟩,
    ⟨"style", .optional ParameterStyle.codec, (·.style), fun r v => { r with style := v }⟩,
    ⟨"explode", .optional .flag, (·.explode), fun r v => { r with explode := v }⟩,
    ⟨"allowReserved", .optional .flag, (·.allowReserved), fun r v => { r with allowReserved := v }⟩]
  rest := .extensions (·.extensions) fun r v => { r with extensions := v }

end EncodingOf

namespace MediaType

def form (inner : Codec MediaType) : Record MediaType where
  blank := {}
  fields := [
    ⟨"schema", .optional Schema.codec, (·.schema), fun r v => { r with schema := v }⟩,
    ⟨"example", .optional .value, (·.sample), fun r v => { r with sample := v }⟩,
    ⟨"examples", .table Example.codec, (·.examples), fun r v => { r with examples := v }⟩,
    ⟨"encoding", .table (EncodingOf.form inner).codec, (·.encoding),
      fun r v => { r with encoding := v }⟩]
  rest := .extensions (·.extensions) fun r v => { r with extensions := v }

def codecWithin : Nat → Codec MediaType
  | 0 => .never
  | n + 1 => (form (codecWithin n)).codec

def toJson (m : MediaType) : Json := (codecWithin m.height).encode m

def ofDatum? (d : Datum) : Option MediaType := (codecWithin (d.height + 1)).decode d

def codec : Codec MediaType := ⟨toJson, ofDatum?⟩

end MediaType

namespace Header

def codec : Codec Header := (HeaderOf.form MediaType.codec).codec

end Header

namespace Parameter

def form : Record Parameter where
  blank := {}
  fields := [
    ⟨"$ref", .optional .text, (·.reference), fun r v => { r with reference := v }⟩,
    ⟨"name", .optional .text, (·.name), fun r v => { r with name := v }⟩,
    ⟨"in", .optional ParameterLocation.codec, (·.location), fun r v => { r with location := v }⟩,
    ⟨"description", .optional .text, (·.description), fun r v => { r with description := v }⟩,
    ⟨"required", .optional .flag, (·.required), fun r v => { r with required := v }⟩,
    ⟨"deprecated", .optional .flag, (·.deprecated), fun r v => { r with deprecated := v }⟩,
    ⟨"allowEmptyValue", .optional .flag, (·.allowEmptyValue),
      fun r v => { r with allowEmptyValue := v }⟩,
    ⟨"style", .optional ParameterStyle.codec, (·.style), fun r v => { r with style := v }⟩,
    ⟨"explode", .optional .flag, (·.explode), fun r v => { r with explode := v }⟩,
    ⟨"allowReserved", .optional .flag, (·.allowReserved), fun r v => { r with allowReserved := v }⟩,
    ⟨"schema", .optional Schema.codec, (·.schema), fun r v => { r with schema := v }⟩,
    ⟨"example", .optional .value, (·.sample), fun r v => { r with sample := v }⟩,
    ⟨"examples", .table Example.codec, (·.examples), fun r v => { r with examples := v }⟩,
    ⟨"content", .table MediaType.codec, (·.content), fun r v => { r with content := v }⟩]
  rest := .extensions (·.extensions) fun r v => { r with extensions := v }

def codec : Codec Parameter := form.codec

end Parameter

namespace RequestBody

def form : Record RequestBody where
  blank := {}
  fields := [
    ⟨"$ref", .optional .text, (·.reference), fun r v => { r with reference := v }⟩,
    ⟨"description", .optional .text, (·.description), fun r v => { r with description := v }⟩,
    ⟨"content", .table MediaType.codec, (·.content), fun r v => { r with content := v }⟩,
    ⟨"required", .optional .flag, (·.required), fun r v => { r with required := v }⟩]
  rest := .extensions (·.extensions) fun r v => { r with extensions := v }

def codec : Codec RequestBody := form.codec

end RequestBody

namespace ServerVariable

def form : Record ServerVariable where
  blank := {}
  fields := [
    ⟨"default", .always .text, (·.default), fun r v => { r with default := v }⟩,
    ⟨"enum", .list .text, (·.enumeration), fun r v => { r with enumeration := v }⟩,
    ⟨"description", .optional .text, (·.description), fun r v => { r with description := v }⟩]
  rest := .extensions (·.extensions) fun r v => { r with extensions := v }

def codec : Codec ServerVariable := form.codec

end ServerVariable

namespace Server

def form : Record Server where
  blank := {}
  fields := [
    ⟨"url", .always .text, (·.url), fun r v => { r with url := v }⟩,
    ⟨"description", .optional .text, (·.description), fun r v => { r with description := v }⟩,
    ⟨"variables", .table ServerVariable.codec, (·.placeholders),
      fun r v => { r with placeholders := v }⟩]
  rest := .extensions (·.extensions) fun r v => { r with extensions := v }

def codec : Codec Server := form.codec

end Server

namespace Link

def form : Record Link where
  blank := {}
  fields := [
    ⟨"$ref", .optional .text, (·.reference), fun r v => { r with reference := v }⟩,
    ⟨"operationRef", .optional .text, (·.operationRef), fun r v => { r with operationRef := v }⟩,
    ⟨"operationId", .optional .text, (·.operationId), fun r v => { r with operationId := v }⟩,
    ⟨"parameters", .table .value, (·.parameters), fun r v => { r with parameters := v }⟩,
    ⟨"requestBody", .optional .value, (·.requestBody), fun r v => { r with requestBody := v }⟩,
    ⟨"description", .optional .text, (·.description), fun r v => { r with description := v }⟩,
    ⟨"server", .optional Server.codec, (·.server), fun r v => { r with server := v }⟩]
  rest := .extensions (·.extensions) fun r v => { r with extensions := v }

def codec : Codec Link := form.codec

end Link

namespace Response

def form : Record Response where
  blank := {}
  fields := [
    ⟨"$ref", .optional .text, (·.reference), fun r v => { r with reference := v }⟩,
    ⟨"description", .optional .text, (·.description), fun r v => { r with description := v }⟩,
    ⟨"headers", .table Header.codec, (·.headers), fun r v => { r with headers := v }⟩,
    ⟨"content", .table MediaType.codec, (·.content), fun r v => { r with content := v }⟩,
    ⟨"links", .table Link.codec, (·.links), fun r v => { r with links := v }⟩]
  rest := .extensions (·.extensions) fun r v => { r with extensions := v }

def codec : Codec Response := form.codec

end Response

namespace Responses

/-- The designation is not part of the form. -/
def codec : Codec Responses where
  encode r := (Codec.table Response.codec).encode r.entries
  decode d := ((Codec.table Response.codec).decode d).map fun m => { entries := m }

end Responses

end ApiDoc
