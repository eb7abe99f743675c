import ApiDoc.Attribute.Payload

/-!
# Notes on operations, tags, security and the document
-/

set_option autoImplicit false

namespace ApiDoc.Attribute

def operation : Vocabulary OperationNote := ⟨"operation", {}, [
  .text "summary" fun n v => { n with summary := some v },
  .text "description" fun n v => { n with description := some v },
  .text "operation_id" fun n v => { n with operationId := some v },
  .flag "deprecated" fun n v => { n with deprecated := some v },
  .flag "hidden" fun n v => { n with hidden := v }]⟩

def tag : Vocabulary TagNote := ⟨"tag", {}, [
  .text "name" fun n v => { n with name := some v },
  .text "ref" fun n v => { n with reference := some v },
  .text "description" fun n v => { n with description := some v },
  externalDocs.under "external_docs" fun n v => { n with externalDocs := some v },
  extensionNote.under "extension" fun n v => { n with extensions := n.extensions ++ [v] }]⟩

/-! ## Security -/

def schemeUse : Vocabulary SchemeUse := ⟨"security_requirement", {}, [
  .text "name" fun n v => { n with name := v },
  .texts "scopes" fun n v => { n with scopes := v }]⟩

def schemeSet : Vocabulary SchemeSet := ⟨"security_requirements_set", [], [
  schemeUse.under "requirement" fun n v => n ++ [v],
  schemeUse.under "security_requirement" fun n v => n ++ [v]]⟩

def scope : Vocabulary (String × String) := ⟨"scope", ("", ""), [
  .text "name" fun n v => (v, n.2),
  .text "description" fun n v => (n.1, v)]⟩

def oauthFlow : Vocabulary OAuthFlowNote := ⟨"oauth flow", {}, [
  .text "authorization_url" fun n v => { n with authorizationUrl := some v },
  .text "token_url" fun n v => { n with tokenUrl := some v },
  .text "refresh_url" fun n v => { n with refreshUrl := some v },
  scope.under "scope" fun n v => { n with scopes := n.scopes ++ [v] }]⟩

def oauthFlows : Vocabulary OAuthFlowsNote := ⟨"flows", {}, [
  oauthFlow.under "implicit" fun n v => { n with implicit := some v },
  oauthFlow.under "password" fun n v => { n with password := some v },
  oauthFlow.under "client_credentials" fun n v => { n with clientCredentials := some v },
  oauthFlow.under "authorization_code" fun n v => { n with authorizationCode := some v }]⟩

def schemeType? (word : String) : Option SecuritySchemeType :=
  match word with
  | "apiKey" | "api_key" => some .apiKey
  | "http" => some .http
  | "oauth2" => some .oauth2
  | "openIdConnect" | "open_id_connect" => some .openIdConnect
  | _ => none

def keyLocation? (word : String) : Option KeyLocation :=
  KeyLocation.all.find? fun l => l.name = word

def securityScheme : Vocabulary SecuritySchemeNote := ⟨"security_scheme", {}, [
  .text "name" fun n v => { n with name := v },
  .word schemeType? .unknownSchemeType "type" fun n v => { n with type := some v },
  .text "description" fun n v => { n with description := some v },
  .text "param_name" fun n v => { n with keyName := some v },
  .word keyLocation? .unknownKeyLocation "in" fun n v => { n with location := some v },
  .text "scheme" fun n v => { n with scheme := some v },
  .text "bearer_format" fun n v => { n with bearerFormat := some v },
  oauthFlows.under "flows" fun n v => { n with flows := some v },
  .text "open_id_connect_url" fun n v => { n with openIdConnectUrl := some v },
  .text "ref" fun n v => { n with reference := some v },
  extensionNote.under "extension" fun n v => { n with extensions := n.extensions ++ [v] }]⟩

/-! ## Callbacks -/

abbrev CallbackParts := Option HttpMethod × CallbackOperationNote

def callbackParts : Vocabulary CallbackParts :=
  ⟨"callback operation", (none, { method := .post }), [
    .word HttpMethod.ofAnyCase? .unknownMethod "method" fun n v => (some v, n.2),
    .text "summary" fun n v => (n.1, { n.2 with summary := some v }),
    .text "description" fun n v => (n.1, { n.2 with description := some v }),
    parameter.under "parameter" fun n v =>
      (n.1, { n.2 with parameters := n.2.parameters ++ [v] }),
    body.under "request_body" fun n v => (n.1, { n.2 with requestBody := some v }),
    response.under "api_response" fun n v =>
      (n.1, { n.2 with responses := n.2.responses ++ [v] })]⟩

def callbackOperation : Arguments CallbackOperationNote := do
  match ← callbackParts.nested with
  | (some method, n) => return { n with method }
  | (none, _) => throw .callbackWithoutMethod

def callback : Vocabulary CallbackNote := ⟨"callback", {}, [
  .text "name" fun n v => { n with name := v },
  .text "expression" fun n v => { n with expression := v },
  .text "callback_url_expression" fun n v => { n with expression := v },
  .of callbackOperation "operation" fun n v => { n with operations := n.operations ++ [v] },
  .text "ref" fun n v => { n with reference := some v }]⟩

/-! ## The document -/

def contact : Vocabulary ContactNote := ⟨"contact", {}, [
  .text "name" fun n v => { n with name := some v },
  .text "url" fun n v => { n with url := some v },
  .text "email" fun n v => { n with email := some v }]⟩

def license : Vocabulary LicenseNote := ⟨"license", {}, [
  .text "name" fun n v => { n with name := v },
  .text "url" fun n v => { n with url := some v }]⟩

def info : Vocabulary InfoNote := ⟨"info", {}, [
  .text "title" fun n v => { n with title := some v },
  .text "version" fun n v => { n with version := some v },
  .text "description" fun n v => { n with description := some v },
  .text "terms_of_service" fun n v => { n with termsOfService := some v },
  contact.under "contact" fun n v => { n with contact := some v },
  license.under "license" fun n v => { n with license := some v },
  extensionNote.under "extension" fun n v => { n with extensions := n.extensions ++ [v] }]⟩

def definition : Vocabulary DefinitionNote := ⟨"openapi_definition", {}, [
  info.under "info" fun n v => { n with info := some v },
  server.under "server" fun n v => { n with servers := n.servers ++ [v] },
  tag.under "tag" fun n v => { n with tags := n.tags ++ [v] },
  schemeUse.under "security_requirement" fun n v => { n with security := n.security ++ [[v]] },
  schemeSet.under "security_requirements_set" fun n v => { n with security := n.security ++ [v] },
  externalDocs.under "external_docs" fun n v => { n with externalDocs := some v },
  extensionNote.under "extension" fun n v => { n with extensions := n.extensions ++ [v] }]⟩

end ApiDoc.Attribute
