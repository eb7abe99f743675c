import ApiDoc.Literal

/-!
# Nodes that carry no schema

Each note gives its node; the only thing that can fail is an extension or an
example that was announced as JSON and is not.
-/

set_option autoImplicit false

namespace ApiDoc

namespace ExternalDocsNote

def node (n : ExternalDocsNote) : ExternalDocs := { url := n.url, description := n.description }

end ExternalDocsNote

namespace ContactNote

def node (n : ContactNote) : Contact := { name := n.name, url := n.url, email := n.email }

end ContactNote

namespace LicenseNote

def node (n : LicenseNote) : License := { name := n.name, url := n.url }

end LicenseNote

namespace InfoNote

def node (n : InfoNote) : Except Failure Info := do
  let extensions ← Literal.extensions n.extensions
  pure {
    title := n.title.getD ""
    version := n.version.getD ""
    description := n.description
    termsOfService := n.termsOfService
    contact := n.contact.map (·.node)
    license := n.license.map (·.node)
    extensions }

end InfoNote

namespace TagNote

def node? (n : TagNote) : Except Failure (Option Tag) :=
  match n.name with
  | none => pure none
  | some name => do
    let extensions ← Literal.extensions n.extensions
    pure (some {
      name
      description := n.description
      externalDocs := n.externalDocs.map (·.node)
      extensions })

end TagNote

namespace ServerVariableNote

def node (n : ServerVariableNote) : ServerVariable :=
  { default := n.default, enumeration := n.enumeration, description := n.description }

end ServerVariableNote

namespace ServerNote

def node (n : ServerNote) : Except Failure Server := do
  let extensions ← Literal.extensions n.extensions
  pure {
    url := n.url
    description := n.description
    placeholders := Ordered.ofRows (n.placeholders.map fun v => (v.name, v.node))
    extensions }

end ServerNote

namespace OAuthFlowNote

def node (n : OAuthFlowNote) : OAuthFlow where
  authorizationUrl := n.authorizationUrl
  tokenUrl := n.tokenUrl
  refreshUrl := n.refreshUrl
  scopes := Ordered.ofRows n.scopes

end OAuthFlowNote

namespace OAuthFlowsNote

def node (n : OAuthFlowsNote) : OAuthFlows where
  implicit := n.implicit.map (·.node)
  password := n.password.map (·.node)
  clientCredentials := n.clientCredentials.map (·.node)
  authorizationCode := n.authorizationCode.map (·.node)

end OAuthFlowsNote

namespace SecuritySchemeNote

def node (n : SecuritySchemeNote) : Except Failure SecurityScheme :=
  match n.reference with
  | some r => pure { reference := some (ComponentKind.securitySchemes.pointer r) }
  | none => do
    let extensions ← Literal.extensions n.extensions
    pure {
      type := n.type
      description := n.description
      name := n.keyName
      location := n.location
      scheme := n.scheme
      bearerFormat := n.bearerFormat
      flows := n.flows.map (·.node)
      openIdConnectUrl := n.openIdConnectUrl
      extensions }

end SecuritySchemeNote

namespace SchemeSet

def node (set : SchemeSet) : SecurityRequirement :=
  Ordered.ofRows (set.map fun u => (u.name, u.scopes))

end SchemeSet

namespace ExampleNote

def value? (n : ExampleNote) : Except Failure (Option Json) :=
  match n.value with
  | none => pure none
  | some s => if n.parsed then (Literal.json n.name s).map some else pure (some (.text s))

def node (n : ExampleNote) : Except Failure Example :=
  match n.reference with
  | some r => pure { reference := some (ComponentKind.examples.pointer r) }
  | none => do
    let value ← n.value?
    pure {
      summary := n.summary
      description := n.description
      value
      externalValue := n.externalValue }

def table (notes : List ExampleNote) : Except Failure (Ordered Example) :=
  (notes.mapM fun (n : ExampleNote) => n.node.map fun e => (n.name, e)).map Ordered.ofRows

end ExampleNote

namespace LinkNote

def node (n : LinkNote) : Except Failure Link :=
  match n.reference with
  | some r => pure { reference := some (ComponentKind.links.pointer r) }
  | none => do
    let server ← match n.server with
      | some s => s.node.map some
      | none => pure none
    let extensions ← Literal.extensions n.extensions
    pure {
      operationRef := n.operationRef
      operationId := n.operationId
      parameters := Ordered.ofRows (n.parameters.map fun p => (p.1, Json.text p.2))
      requestBody := n.requestBody.map .text
      description := n.description
      server
      extensions }

end LinkNote

end ApiDoc
