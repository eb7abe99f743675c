import ApiDoc.Form.Operation
import ApiDoc.Document.Basic
import ApiDoc.Json.Reader
import ApiDoc.Json.Printer

/-!
# The JSON form of documents
-/

set_option autoImplicit false

namespace ApiDoc

namespace Contact

def form : Record Contact where
  blank := {}
  fields := [
    ⟨"name", .optional .text, (·.name), fun r v => { r with name := v }⟩,
    ⟨"url", .optional .text, (·.url), fun r v => { r with url := v }⟩,
    ⟨"email", .optional .text, (·.email), fun r v => { r with email := v }⟩]
  rest := .extensions (·.extensions) fun r v => { r with extensions := v }

def codec : Codec Contact := form.codec

end Contact

namespace License

def form : Record License where
  blank := {}
  fields := [
    ⟨"name", .always .text, (·.name), fun r v => { r with name := v }⟩,
    ⟨"url", .optional .text, (·.url), fun r v => { r with url := v }⟩]
  rest := .extensions (·.extensions) fun r v => { r with extensions := v }

def codec : Codec License := form.codec

end License

namespace Info

def form : Record Info where
  blank := {}
  fields := [
    ⟨"title", .always .text, (·.title), fun r v => { r with title := v }⟩,
    ⟨"version", .always .text, (·.version), fun r v => { r with version := v }⟩,
    ⟨"description", .optional .text, (·.description), fun r v => { r with description := v }⟩,
    ⟨"termsOfService", .optional .text, (·.termsOfService),
      fun r v => { r with termsOfService := v }⟩,
    ⟨"contact", .optional Contact.codec, (·.contact), fun r v => { r with contact := v }⟩,
    ⟨"license", .optional License.codec, (·.license), fun r v => { r with license := v }⟩]
  rest := .extensions (·.extensions) fun r v => { r with extensions := v }

def codec : Codec Info := form.codec

end Info

namespace Tag

def form : Record Tag where
  blank := {}
  fields := [
    ⟨"name", .always .text, (·.name), fun r v => { r with name := v }⟩,
    ⟨"description", .optional .text, (·.description), fun r v => { r with description := v }⟩,
    ⟨"externalDocs", .optional ExternalDocs.codec, (·.externalDocs),
      fun r v => { r with externalDocs := v }⟩]
  rest := .extensions (·.extensions) fun r v => { r with extensions := v }

def codec : Codec Tag := form.codec

end Tag

namespace SecuritySchemeType

def codec : Codec SecuritySchemeType := .word name all

end SecuritySchemeType

namespace KeyLocation

def codec : Codec KeyLocation := .word name all

end KeyLocation

namespace OAuthFlow

def form : Record OAuthFlow where
  blank := {}
  fields := [
    ⟨"authorizationUrl", .optional .text, (·.authorizationUrl),
      fun r v => { r with authorizationUrl := v }⟩,
    ⟨"tokenUrl", .optional .text, (·.tokenUrl), fun r v => { r with tokenUrl := v }⟩,
    ⟨"refreshUrl", .optional .text, (·.refreshUrl), fun r v => { r with refreshUrl := v }⟩,
    ⟨"scopes", .always (.table .text), (·.scopes), fun r v => { r with scopes := v }⟩]
  rest := .extensions (·.extensions) fun r v => { r with extensions := v }

def codec : Codec OAuthFlow := form.codec

end OAuthFlow

namespace OAuthFlows

def form : Record OAuthFlows where
  blank := {}
  fields := [
    ⟨"implicit", .optional OAuthFlow.codec, (·.implicit), fun r v => { r with implicit := v }⟩,
    ⟨"password", .optional OAuthFlow.codec, (·.password), fun r v => { r with password := v }⟩,
    ⟨"clientCredentials", .optional OAuthFlow.codec, (·.clientCredentials),
      fun r v => { r with clientCredentials := v }⟩,
    ⟨"authorizationCode", .optional OAuthFlow.codec, (·.authorizationCode),
      fun r v => { r with authorizationCode := v }⟩]
  rest := .extensions (·.extensions) fun r v => { r with extensions := v }

def codec : Codec OAuthFlows := form.codec

end OAuthFlows

namespace SecurityScheme

def form : Record SecurityScheme where
  blank := {}
  fields := [
    ⟨"$ref", .optional .text, (·.reference), fun r v => { r with reference := v }⟩,
    ⟨"type", .optional SecuritySchemeType.codec, (·.type), fun r v => { r with type := v }⟩,
    ⟨"description", .optional .text, (·.description), fun r v => { r with description := v }⟩,
    ⟨"name", .optional .text, (·.name), fun r v => { r with name := v }⟩,
    ⟨"in", .optional KeyLocation.codec, (·.location), fun r v => { r with location := v }⟩,
    ⟨"scheme", .optional .text, (·.scheme), fun r v => { r with scheme := v }⟩,
    ⟨"bearerFormat", .optional .text, (·.bearerFormat), fun r v => { r with bearerFormat := v }⟩,
    ⟨"flows", .optional OAuthFlows.codec, (·.flows), fun r v => { r with flows := v }⟩,
    ⟨"openIdConnectUrl", .optional .text, (·.openIdConnectUrl),
      fun r v => { r with openIdConnectUrl := v }⟩]
  rest := .extensions (·.extensions) fun r v => { r with extensions := v }

def codec : Codec SecurityScheme := form.codec

end SecurityScheme

namespace Components

def form : Record Components where
  blank := {}
  fields := [
    ⟨"schemas", .table Schema.codec, (·.schemas), fun r v => { r with schemas := v }⟩,
    ⟨"responses", .table Response.codec, (·.responses), fun r v => { r with responses := v }⟩,
    ⟨"parameters", .table Parameter.codec, (·.parameters), fun r v => { r with parameters := v }⟩,
    ⟨"examples", .table Example.codec, (·.examples), fun r v => { r with examples := v }⟩,
    ⟨"requestBodies", .table RequestBody.codec, (·.requestBodies),
      fun r v => { r with requestBodies := v }⟩,
    ⟨"headers", .table Header.codec, (·.headers), fun r v => { r with headers := v }⟩,
    ⟨"securitySchemes", .table SecurityScheme.codec, (·.securitySchemes),
      fun r v => { r with securitySchemes := v }⟩,
    ⟨"links", .table Link.codec, (·.links), fun r v => { r with links := v }⟩,
    ⟨"callbacks", .table Callback.codec, (·.callbacks), fun r v => { r with callbacks := v }⟩]
  rest := .extensions (·.extensions) fun r v => { r with extensions := v }

def codec : Codec Components := form.codec

end Components

namespace OpenApi

def form : Record OpenApi where
  blank := {}
  fields := [
    ⟨"openapi", .always .text, (·.version), fun r v => { r with version := v }⟩,
    ⟨"info", .optional Info.codec, (·.info), fun r v => { r with info := v }⟩,
    ⟨"servers", .list Server.codec, (·.servers), fun r v => { r with servers := v }⟩,
    ⟨"paths", .table PathItem.codec, (·.paths), fun r v => { r with paths := v }⟩,
    ⟨"components", .optional Components.codec, (·.components),
      fun r v => { r with components := v }⟩,
    ⟨"security", .list SecurityRequirement.codec, (·.security),
      fun r v => { r with security := v }⟩,
    ⟨"tags", .list Tag.codec, (·.tags), fun r v => { r with tags := v }⟩,
    ⟨"externalDocs", .optional ExternalDocs.codec, (·.externalDocs),
      fun r v => { r with externalDocs := v }⟩]
  rest := .extensions (·.extensions) fun r v => { r with extensions := v }

def codec : Codec OpenApi := form.codec

def toJson (d : OpenApi) : Json := form.encode d

def ofJsonText? (text : String) : Option OpenApi :=
  (Json.parse? text).bind fun j => form.decode (.ofJson j)

def toJsonText (d : OpenApi) : String := d.toJson.pretty

end OpenApi

end ApiDoc
