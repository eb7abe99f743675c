import ApiDoc.Form.Content
import ApiDoc.Document.Operation

/-!
# The JSON form of operations, path items and callbacks

The path items of a callback stand under names that are no field of it, so
they are read as free-form data first.
-/

set_option autoImplicit false

namespace ApiDoc

namespace SecurityRequirement

def codec : Codec SecurityRequirement := .table (.list .text)

end SecurityRequirement

namespace PathItemOf

def slot {operation : Type} (inner : Codec operation) (method : HttpMethod) :
    Field (PathItemOf operation) where
  name := method.name
  cell := .optional inner
  get i := i.slots.at? method
  set i o := { i with slots := i.slots.set method o }

def form {operation : Type} (inner : Codec operation) : Record (PathItemOf operation) where
  blank := {}
  fields := [
    ⟨"$ref", .optional .text, (·.reference), fun r v => { r with reference := v }⟩,
    ⟨"summary", .optional .text, (·.summary), fun r v => { r with summary := v }⟩,
    ⟨"description", .optional .text, (·.description), fun r v => { r with description := v }⟩]
    ++ HttpMethod.all.map (slot inner) ++ [
    ⟨"servers", .list Server.codec, (·.servers), fun r v => { r with servers := v }⟩,
    ⟨"parameters", .list Parameter.codec, (·.parameters), fun r v => { r with parameters := v }⟩]
  rest := .extensions (·.extensions) fun r v => { r with extensions := v }

end PathItemOf

namespace CallbackOf

def form {operation : Type} (inner : Codec operation) : Record (CallbackOf operation) where
  blank := {}
  fields := [
    ⟨"$ref", .optional .text, (·.reference), fun r v => { r with reference := v }⟩]
  rest := .table (PathItemOf.form inner).codec (·.expressions)
    fun r v => { r with expressions := v }

end CallbackOf

namespace Operation

def form (inner : Codec Operation) : Record Operation where
  blank := {}
  fields := [
    ⟨"tags", .list .text, (·.tags), fun r v => { r with tags := v }⟩,
    ⟨"summary", .optional .text, (·.summary), fun r v => { r with summary := v }⟩,
    ⟨"description", .optional .text, (·.description), fun r v => { r with description := v }⟩,
    ⟨"externalDocs", .optional ExternalDocs.codec, (·.externalDocs),
      fun r v => { r with externalDocs := v }⟩,
    ⟨"operationId", .optional .text, (·.operationId), fun r v => { r with operationId := v }⟩,
    ⟨"parameters", .list Parameter.codec, (·.parameters), fun r v => { r with parameters := v }⟩,
    ⟨"requestBody", .optional RequestBody.codec, (·.requestBody),
      fun r v => { r with requestBody := v }⟩,
    ⟨"responses", .optional Responses.codec, (·.responses), fun r v => { r with responses := v }⟩,
    ⟨"callbacks", .table (CallbackOf.form inner).codec, (·.callbacks),
      fun r v => { r with callbacks := v }⟩,
    ⟨"deprecated", .optional .flag, (·.deprecated), fun r v => { r with deprecated := v }⟩,
    ⟨"security", .optional (.list SecurityRequirement.codec), (·.security),
      fun r v => { r with security := v }⟩,
    ⟨"servers", .list Server.codec, (·.servers), fun r v => { r with servers := v }⟩]
  rest := .extensions (·.extensions) fun r v => { r with extensions := v }

def codecWithin : Nat → Codec Operation
  | 0 => .never
  | n + 1 => (form (codecWithin n)).codec

def toJson (o : Operation) : Json := (codecWithin o.height).encode o

def ofDatum? (d : Datum) : Option Operation := (codecWithin (d.height + 1)).decode d

def codec : Codec Operation := ⟨toJson, ofDatum?⟩

end Operation

namespace PathItem

def codec : Codec PathItem := (PathItemOf.form Operation.codec).codec

end PathItem

namespace Callback

def codec : Codec Callback := (CallbackOf.form Operation.codec).codec

end Callback

end ApiDoc
