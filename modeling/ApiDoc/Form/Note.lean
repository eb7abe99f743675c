import ApiDoc.Form.Document
import ApiDoc.Note

/-!
# The JSON form of notes

What annotations say can be kept as JSON and read back. A field that says
nothing is left out, and a field that holds null counts as left out.
-/

set_option autoImplicit false

namespace ApiDoc

namespace Cell

def plainText : Cell String where
  write s := if s.isEmpty then none else some (.text s)
  read := Datum.text?

def plainFlag : Cell Bool where
  write b := if b then some (.bool true) else none
  read := Datum.bool?

end Cell

namespace Codec

variable {ρ : Type}

def ofFields (blank : ρ) (fields : List (Field ρ)) : Codec ρ :=
  (Record.mk blank fields Rest.dropped).codec

def textPair : Codec (String × String) where
  encode p := .array [.text p.1, .text p.2]
  decode
    | .list [a, b] => do pure (← a.text?, ← b.text?)
    | _ => none

end Codec

namespace TypeExpr

mutual
def toJson : TypeExpr → Json
  | ⟨name, []⟩ => .text name
  | ⟨name, arg :: args⟩ => .array (.text name :: arg.toJson :: toJsonList args)
def toJsonList : List TypeExpr → List Json
  | [] => []
  | t :: ts => t.toJson :: toJsonList ts
end

mutual
def ofDatum? : Datum → Option TypeExpr
  | .text s => some { name := s }
  | .list (.text name :: args) => (ofDatumList args).map fun args => ⟨name, args⟩
  | _ => none
def ofDatumList : List Datum → Option (List TypeExpr)
  | [] => some []
  | d :: ds => do pure ((← ofDatum? d) :: (← ofDatumList ds))
end

def codec : Codec TypeExpr := ⟨toJson, ofDatum?⟩

end TypeExpr

namespace Json

mutual
def withoutNulls : Json → Json
  | .object rows => .object (rowsWithoutNulls rows)
  | .array items => .array (itemsWithoutNulls items)
  | j => j
def itemsWithoutNulls : List Json → List Json
  | [] => []
  | j :: js => withoutNulls j :: itemsWithoutNulls js
def rowsWithoutNulls : List (String × Json) → List (String × Json)
  | [] => []
  | (_, .null) :: rows => rowsWithoutNulls rows
  | (k, j) :: rows => (k, withoutNulls j) :: rowsWithoutNulls rows
end

end Json

namespace Codec

variable {α : Type}

def ofJson? (c : Codec α) (j : Json) : Option α := c.decode (.ofJson j.withoutNulls)

end Codec

def ExternalDocsNote.codec : Codec ExternalDocsNote := Codec.ofFields {} [
  ⟨"url", .plainText, (·.url), fun r v => { r with url := v }⟩,
  ⟨"description", .optional .text, (·.description), fun r v => { r with description := v }⟩]

def ExtensionNote.codec : Codec ExtensionNote := Codec.ofFields {} [
  ⟨"name", .plainText, (·.name), fun r v => { r with name := v }⟩,
  ⟨"value", .plainText, (·.value), fun r v => { r with value := v }⟩,
  ⟨"parse_value", .plainFlag, (·.parsed), fun r v => { r with parsed := v }⟩]

def MappingNote.codec : Codec MappingNote := Codec.ofFields default [
  ⟨"value", .plainText, (·.value), fun r v => { r with value := v }⟩,
  ⟨"schema", .always TypeExpr.codec, (·.type), fun r v => { r with type := v }⟩]

def SchemaNote.codec : Codec SchemaNote := Codec.ofFields {} [
  ⟨"name", .optional .text, (·.name), fun r v => { r with name := v }⟩,
  ⟨"title", .optional .text, (·.title), fun r v => { r with title := v }⟩,
  ⟨"description", .optional .text, (·.description), fun r v => { r with description := v }⟩,
  ⟨"schema_type", .optional .text, (·.type), fun r v => { r with type := v }⟩,
  ⟨"format", .optional .text, (·.format), fun r v => { r with format := v }⟩,
  ⟨"implementation", .optional TypeExpr.codec, (·.implementation),
    fun r v => { r with implementation := v }⟩,
  ⟨"reference", .optional .text, (·.reference), fun r v => { r with reference := v }⟩,
  ⟨"minimum", .optional .text, (·.minimum), fun r v => { r with minimum := v }⟩,
  ⟨"maximum", .optional .text, (·.maximum), fun r v => { r with maximum := v }⟩,
  ⟨"multiple_of", .optional .text, (·.multipleOf), fun r v => { r with multipleOf := v }⟩,
  ⟨"exclusive_minimum", .optional .flag, (·.exclusiveMinimum),
    fun r v => { r with exclusiveMinimum := v }⟩,
  ⟨"exclusive_maximum", .optional .flag, (·.exclusiveMaximum),
    fun r v => { r with exclusiveMaximum := v }⟩,
  ⟨"min_length", .optional .natural, (·.minLength), fun r v => { r with minLength := v }⟩,
  ⟨"max_length", .optional .natural, (·.maxLength), fun r v => { r with maxLength := v }⟩,
  ⟨"pattern", .optional .text, (·.pattern), fun r v => { r with pattern := v }⟩,
  ⟨"min_items", .optional .natural, (·.minItems), fun r v => { r with minItems := v }⟩,
  ⟨"max_items", .optional .natural, (·.maxItems), fun r v => { r with maxItems := v }⟩,
  ⟨"unique_items", .optional .flag, (·.uniqueItems), fun r v => { r with uniqueItems := v }⟩,
  ⟨"min_properties", .optional .natural, (·.minProperties),
    fun r v => { r with minProperties := v }⟩,
  ⟨"max_properties", .optional .natural, (·.maxProperties),
    fun r v => { r with maxProperties := v }⟩,
  ⟨"enumeration", .list .text, (·.enumeration), fun r v => { r with enumeration := v }⟩,
  ⟨"nullable", .optional .flag, (·.nullable), fun r v => { r with nullable := v }⟩,
  ⟨"read_only", .optional .flag, (·.readOnly), fun r v => { r with readOnly := v }⟩,
  ⟨"write_only", .optional .flag, (·.writeOnly), fun r v => { r with writeOnly := v }⟩,
  ⟨"deprecated", .optional .flag, (·.deprecated), fun r v => { r with deprecated := v }⟩,
  ⟨"default_value", .optional .text, (·.default), fun r v => { r with default := v }⟩,
  ⟨"example", .optional .text, (·.sample), fun r v => { r with sample := v }⟩,
  ⟨"required", .optional .flag, (·.required), fun r v => { r with required := v }⟩,
  ⟨"hidden", .plainFlag, (·.hidden), fun r v => { r with hidden := v }⟩,
  ⟨"one_of", .list TypeExpr.codec, (·.oneOf), fun r v => { r with oneOf := v }⟩,
  ⟨"any_of", .list TypeExpr.codec, (·.anyOf), fun r v => { r with anyOf := v }⟩,
  ⟨"all_of", .list TypeExpr.codec, (·.allOf), fun r v => { r with allOf := v }⟩,
  ⟨"not", .optional TypeExpr.codec, (·.negated), fun r v => { r with negated := v }⟩,
  ⟨"discriminator_property", .optional .text, (·.discriminator),
    fun r v => { r with discriminator := v }⟩,
  ⟨"discriminator_mapping", .list MappingNote.codec, (·.mapping),
    fun r v => { r with mapping := v }⟩,
  ⟨"external_docs", .optional ExternalDocsNote.codec, (·.externalDocs),
    fun r v => { r with externalDocs := v }⟩,
  ⟨"extensions", .list ExtensionNote.codec, (·.extensions), fun r v => { r with extensions := v }⟩]

def ContactNote.codec : Codec ContactNote := Codec.ofFields {} [
  ⟨"name", .optional .text, (·.name), fun r v => { r with name := v }⟩,
  ⟨"url", .optional .text, (·.url), fun r v => { r with url := v }⟩,
  ⟨"email", .optional .text, (·.email), fun r v => { r with email := v }⟩]

def LicenseNote.codec : Codec LicenseNote := Codec.ofFields {} [
  ⟨"name", .plainText, (·.name), fun r v => { r with name := v }⟩,
  ⟨"url", .optional .text, (·.url), fun r v => { r with url := v }⟩]

def InfoNote.codec : Codec InfoNote := Codec.ofFields {} [
  ⟨"title", .optional .text, (·.title), fun r v => { r with title := v }⟩,
  ⟨"version", .optional .text, (·.version), fun r v => { r with version := v }⟩,
  ⟨"description", .optional .text, (·.description), fun r v => { r with description := v }⟩,
  ⟨"terms_of_service", .optional .text, (·.termsOfService),
    fun r v => { r with termsOfService := v }⟩,
  ⟨"contact", .optional ContactNote.codec, (·.contact), fun r v => { r with contact := v }⟩,
  ⟨"license", .optional LicenseNote.codec, (·.license), fun r v => { r with license := v }⟩,
  ⟨"extensions", .list ExtensionNote.codec, (·.extensions), fun r v => { r with extensions := v }⟩]

def TagNote.codec : Codec TagNote := Codec.ofFields {} [
  ⟨"name", .optional .text, (·.name), fun r v => { r with name := v }⟩,
  ⟨"reference", .optional .text, (·.reference), fun r v => { r with reference := v }⟩,
  ⟨"description", .optional .text, (·.description), fun r v => { r with description := v }⟩,
  ⟨"external_docs", .optional ExternalDocsNote.codec, (·.externalDocs),
    fun r v => { r with externalDocs := v }⟩,
  ⟨"extensions", .list ExtensionNote.codec, (·.extensions), fun r v => { r with extensions := v }⟩]

def ServerVariableNote.codec : Codec ServerVariableNote := Codec.ofFields {} [
  ⟨"name", .plainText, (·.name), fun r v => { r with name := v }⟩,
  ⟨"default", .plainText, (·.default), fun r v => { r with default := v }⟩,
  ⟨"enumeration", .list .text, (·.enumeration), fun r v => { r with enumeration := v }⟩,
  ⟨"description", .optional .text, (·.description), fun r v => { r with description := v }⟩]

def ServerNote.codec : Codec ServerNote := Codec.ofFields {} [
  ⟨"url", .plainText, (·.url), fun r v => { r with url := v }⟩,
  ⟨"description", .optional .text, (·.description), fun r v => { r with description := v }⟩,
  ⟨"variables", .list ServerVariableNote.codec, (·.placeholders),
    fun r v => { r with placeholders := v }⟩,
  ⟨"extensions", .list ExtensionNote.codec, (·.extensions), fun r v => { r with extensions := v }⟩]

def OAuthFlowNote.codec : Codec OAuthFlowNote := Codec.ofFields {} [
  ⟨"authorization_url", .optional .text, (·.authorizationUrl),
    fun r v => { r with authorizationUrl := v }⟩,
  ⟨"token_url", .optional .text, (·.tokenUrl), fun r v => { r with tokenUrl := v }⟩,
  ⟨"refresh_url", .optional .text, (·.refreshUrl), fun r v => { r with refreshUrl := v }⟩,
  ⟨"scopes", .list Codec.textPair, (·.scopes), fun r v => { r with scopes := v }⟩]

def OAuthFlowsNote.codec : Codec OAuthFlowsNote := Codec.ofFields {} [
  ⟨"implicit", .optional OAuthFlowNote.codec, (·.implicit), fun r v => { r with implicit := v }⟩,
  ⟨"password", .optional OAuthFlowNote.codec, (·.password), fun r v => { r with password := v }⟩,
  ⟨"client_credentials", .optional OAuthFlowNote.codec, (·.clientCredentials),
    fun r v => { r with clientCredentials := v }⟩,
  ⟨"authorization_code", .optional OAuthFlowNote.codec, (·.authorizationCode),
    fun r v => { r with authorizationCode := v }⟩]

def SecuritySchemeNote.codec : Codec SecuritySchemeNote := Codec.ofFields {} [
  ⟨"name", .plainText, (·.name), fun r v => { r with name := v }⟩,
  ⟨"scheme_type", .optional SecuritySchemeType.codec, (·.type), fun r v => { r with type := v }⟩,
  ⟨"description", .optional .text, (·.description), fun r v => { r with description := v }⟩,
  ⟨"api_key_name", .optional .text, (·.keyName), fun r v => { r with keyName := v }⟩,
  ⟨"location", .optional KeyLocation.codec, (·.location), fun r v => { r with location := v }⟩,
  ⟨"scheme", .optional .text, (·.scheme), fun r v => { r with scheme := v }⟩,
  ⟨"bearer_format", .optional .text, (·.bearerFormat), fun r v => { r with bearerFormat := v }⟩,
  ⟨"flows", .optional OAuthFlowsNote.codec, (·.flows), fun r v => { r with flows := v }⟩,
  ⟨"open_id_connect_url", .optional .text, (·.openIdConnectUrl),
    fun r v => { r with openIdConnectUrl := v }⟩,
  ⟨"reference", .optional .text, (·.reference), fun r v => { r with reference := v }⟩,
  ⟨"extensions", .list ExtensionNote.codec, (·.extensions), fun r v => { r with extensions := v }⟩]

def SchemeUse.codec : Codec SchemeUse := Codec.ofFields {} [
  ⟨"name", .plainText, (·.name), fun r v => { r with name := v }⟩,
  ⟨"scopes", .list .text, (·.scopes), fun r v => { r with scopes := v }⟩]

def SchemeSet.codec : Codec SchemeSet := .list SchemeUse.codec

def ExampleNote.codec : Codec ExampleNote := Codec.ofFields {} [
  ⟨"name", .plainText, (·.name), fun r v => { r with name := v }⟩,
  ⟨"summary", .optional .text, (·.summary), fun r v => { r with summary := v }⟩,
  ⟨"description", .optional .text, (·.description), fun r v => { r with description := v }⟩,
  ⟨"value", .optional .text, (·.value), fun r v => { r with value := v }⟩,
  ⟨"external_value", .optional .text, (·.externalValue), fun r v => { r with externalValue := v }⟩,
  ⟨"parse_value", .plainFlag, (·.parsed), fun r v => { r with parsed := v }⟩,
  ⟨"reference", .optional .text, (·.reference), fun r v => { r with reference := v }⟩]

def ContentNote.codec : Codec ContentNote := Codec.ofFields {} [
  ⟨"media_type", .optional .text, (·.mediaType), fun r v => { r with mediaType := v }⟩,
  ⟨"schema", .optional SchemaNote.codec, (·.schema), fun r v => { r with schema := v }⟩,
  ⟨"example", .optional .text, (·.sample), fun r v => { r with sample := v }⟩,
  ⟨"examples", .list ExampleNote.codec, (·.examples), fun r v => { r with examples := v }⟩]

def HeaderNote.codec : Codec HeaderNote := Codec.ofFields {} [
  ⟨"name", .plainText, (·.name), fun r v => { r with name := v }⟩,
  ⟨"description", .optional .text, (·.description), fun r v => { r with description := v }⟩,
  ⟨"required", .optional .flag, (·.required), fun r v => { r with required := v }⟩,
  ⟨"deprecated", .optional .flag, (·.deprecated), fun r v => { r with deprecated := v }⟩,
  ⟨"schema", .optional SchemaNote.codec, (·.schema), fun r v => { r with schema := v }⟩,
  ⟨"reference", .optional .text, (·.reference), fun r v => { r with reference := v }⟩,
  ⟨"extensions", .list ExtensionNote.codec, (·.extensions), fun r v => { r with extensions := v }⟩]

def LinkNote.codec : Codec LinkNote := Codec.ofFields {} [
  ⟨"name", .plainText, (·.name), fun r v => { r with name := v }⟩,
  ⟨"operation_id", .optional .text, (·.operationId), fun r v => { r with operationId := v }⟩,
  ⟨"operation_ref", .optional .text, (·.operationRef), fun r v => { r with operationRef := v }⟩,
  ⟨"description", .optional .text, (·.description), fun r v => { r with description := v }⟩,
  ⟨"parameters", .list Codec.textPair, (·.parameters), fun r v => { r with parameters := v }⟩,
  ⟨"request_body", .optional .text, (·.requestBody), fun r v => { r with requestBody := v }⟩,
  ⟨"server", .optional ServerNote.codec, (·.server), fun r v => { r with server := v }⟩,
  ⟨"reference", .optional .text, (·.reference), fun r v => { r with reference := v }⟩,
  ⟨"extensions", .list ExtensionNote.codec, (·.extensions), fun r v => { r with extensions := v }⟩]

def ParameterNote.codec : Codec ParameterNote := Codec.ofFields {} [
  ⟨"name", .optional .text, (·.name), fun r v => { r with name := v }⟩,
  ⟨"location", .optional ParameterLocation.codec, (·.location),
    fun r v => { r with location := v }⟩,
  ⟨"description", .optional .text, (·.description), fun r v => { r with description := v }⟩,
  ⟨"required", .optional .flag, (·.required), fun r v => { r with required := v }⟩,
  ⟨"deprecated", .optional .flag, (·.deprecated), fun r v => { r with deprecated := v }⟩,
  ⟨"allow_empty_value", .optional .flag, (·.allowEmptyValue),
    fun r v => { r with allowEmptyValue := v }⟩,
  ⟨"style", .optional ParameterStyle.codec, (·.style), fun r v => { r with style := v }⟩,
  ⟨"explode", .optional .flag, (·.explode), fun r v => { r with explode := v }⟩,
  ⟨"allow_reserved", .optional .flag, (·.allowReserved), fun r v => { r with allowReserved := v }⟩,
  ⟨"schema", .optional SchemaNote.codec, (·.schema), fun r v => { r with schema := v }⟩,
  ⟨"example", .optional .text, (·.sample), fun r v => { r with sample := v }⟩,
  ⟨"examples", .list ExampleNote.codec, (·.examples), fun r v => { r with examples := v }⟩,
  ⟨"content", .list ContentNote.codec, (·.content), fun r v => { r with content := v }⟩,
  ⟨"reference", .optional .text, (·.reference), fun r v => { r with reference := v }⟩,
  ⟨"hidden", .plainFlag, (·.hidden), fun r v => { r with hidden := v }⟩,
  ⟨"extensions", .list ExtensionNote.codec, (·.extensions), fun r v => { r with extensions := v }⟩]

def BodyNote.codec : Codec BodyNote := Codec.ofFields {} [
  ⟨"description", .optional .text, (·.description), fun r v => { r with description := v }⟩,
  ⟨"required", .optional .flag, (·.required), fun r v => { r with required := v }⟩,
  ⟨"content", .list ContentNote.codec, (·.content), fun r v => { r with content := v }⟩,
  ⟨"reference", .optional .text, (·.reference), fun r v => { r with reference := v }⟩,
  ⟨"extensions", .list ExtensionNote.codec, (·.extensions), fun r v => { r with extensions := v }⟩]

def ResponseNote.codec : Codec ResponseNote := Codec.ofFields {} [
  ⟨"status", .plainText, (·.status), fun r v => { r with status := v }⟩,
  ⟨"description", .optional .text, (·.description), fun r v => { r with description := v }⟩,
  ⟨"content", .list ContentNote.codec, (·.content), fun r v => { r with content := v }⟩,
  ⟨"headers", .list HeaderNote.codec, (·.headers), fun r v => { r with headers := v }⟩,
  ⟨"links", .list LinkNote.codec, (·.links), fun r v => { r with links := v }⟩,
  ⟨"reference", .optional .text, (·.reference), fun r v => { r with reference := v }⟩,
  ⟨"extensions", .list ExtensionNote.codec, (·.extensions), fun r v => { r with extensions := v }⟩]

def OperationNote.codec : Codec OperationNote := Codec.ofFields {} [
  ⟨"summary", .optional .text, (·.summary), fun r v => { r with summary := v }⟩,
  ⟨"description", .optional .text, (·.description), fun r v => { r with description := v }⟩,
  ⟨"operation_id", .optional .text, (·.operationId), fun r v => { r with operationId := v }⟩,
  ⟨"deprecated", .optional .flag, (·.deprecated), fun r v => { r with deprecated := v }⟩,
  ⟨"hidden", .plainFlag, (·.hidden), fun r v => { r with hidden := v }⟩]

def HttpMethod.codec : Codec HttpMethod := .word HttpMethod.name HttpMethod.all

def CallbackOperationNote.codec : Codec CallbackOperationNote :=
  Codec.ofFields { method := .post } [
  ⟨"method", .always HttpMethod.codec, (·.method), fun r v => { r with method := v }⟩,
  ⟨"summary", .optional .text, (·.summary), fun r v => { r with summary := v }⟩,
  ⟨"description", .optional .text, (·.description), fun r v => { r with description := v }⟩,
  ⟨"parameters", .list ParameterNote.codec, (·.parameters), fun r v => { r with parameters := v }⟩,
  ⟨"request_body", .optional BodyNote.codec, (·.requestBody),
    fun r v => { r with requestBody := v }⟩,
  ⟨"responses", .list ResponseNote.codec, (·.responses), fun r v => { r with responses := v }⟩]

def CallbackNote.codec : Codec CallbackNote := Codec.ofFields {} [
  ⟨"name", .plainText, (·.name), fun r v => { r with name := v }⟩,
  ⟨"expression", .plainText, (·.expression), fun r v => { r with expression := v }⟩,
  ⟨"operations", .list CallbackOperationNote.codec, (·.operations),
    fun r v => { r with operations := v }⟩,
  ⟨"reference", .optional .text, (·.reference), fun r v => { r with reference := v }⟩]

def DefinitionNote.codec : Codec DefinitionNote := Codec.ofFields {} [
  ⟨"info", .optional InfoNote.codec, (·.info), fun r v => { r with info := v }⟩,
  ⟨"servers", .list ServerNote.codec, (·.servers), fun r v => { r with servers := v }⟩,
  ⟨"tags", .list TagNote.codec, (·.tags), fun r v => { r with tags := v }⟩,
  ⟨"security", .list SchemeSet.codec, (·.security), fun r v => { r with security := v }⟩,
  ⟨"external_docs", .optional ExternalDocsNote.codec, (·.externalDocs),
    fun r v => { r with externalDocs := v }⟩,
  ⟨"extensions", .list ExtensionNote.codec, (·.extensions), fun r v => { r with extensions := v }⟩]

end ApiDoc
