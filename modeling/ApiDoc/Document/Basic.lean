import ApiDoc.Document.Operation

/-!
# OpenAPI documents
-/

set_option autoImplicit false

namespace ApiDoc

structure Contact where
  name : Option String := none
  url : Option String := none
  email : Option String := none
  extensions : Extensions := {}

structure License where
  name : String := ""
  url : Option String := none
  extensions : Extensions := {}

structure Info where
  title : String := ""
  version : String := ""
  description : Option String := none
  termsOfService : Option String := none
  contact : Option Contact := none
  license : Option License := none
  extensions : Extensions := {}

structure Tag where
  name : String := ""
  description : Option String := none
  externalDocs : Option ExternalDocs := none
  extensions : Extensions := {}

inductive SecuritySchemeType where
  | apiKey
  | http
  | oauth2
  | openIdConnect
  deriving DecidableEq, Repr

namespace SecuritySchemeType

def all : List SecuritySchemeType := [.apiKey, .http, .oauth2, .openIdConnect]

def name : SecuritySchemeType → String
  | .apiKey => "apiKey"
  | .http => "http"
  | .oauth2 => "oauth2"
  | .openIdConnect => "openIdConnect"

end SecuritySchemeType

inductive KeyLocation where
  | query
  | header
  | cookie
  deriving DecidableEq, Repr

namespace KeyLocation

def all : List KeyLocation := [.query, .header, .cookie]

def name : KeyLocation → String
  | .query => "query"
  | .header => "header"
  | .cookie => "cookie"

end KeyLocation

structure OAuthFlow where
  authorizationUrl : Option String := none
  tokenUrl : Option String := none
  refreshUrl : Option String := none
  scopes : Ordered String := {}
  extensions : Extensions := {}

structure OAuthFlows where
  implicit : Option OAuthFlow := none
  password : Option OAuthFlow := none
  clientCredentials : Option OAuthFlow := none
  authorizationCode : Option OAuthFlow := none
  extensions : Extensions := {}

structure SecurityScheme where
  reference : Option String := none
  type : Option SecuritySchemeType := none
  description : Option String := none
  name : Option String := none
  location : Option KeyLocation := none
  scheme : Option String := none
  bearerFormat : Option String := none
  flows : Option OAuthFlows := none
  openIdConnectUrl : Option String := none
  extensions : Extensions := {}

structure Components where
  schemas : Ordered Schema := {}
  responses : Ordered Response := {}
  parameters : Ordered Parameter := {}
  examples : Ordered Example := {}
  requestBodies : Ordered RequestBody := {}
  headers : Ordered Header := {}
  securitySchemes : Ordered SecurityScheme := {}
  links : Ordered Link := {}
  callbacks : Ordered Callback := {}
  extensions : Extensions := {}

namespace Components

def isEmpty (c : Components) : Bool :=
  c.schemas.isEmpty && c.responses.isEmpty && c.parameters.isEmpty && c.examples.isEmpty
    && c.requestBodies.isEmpty && c.headers.isEmpty && c.securitySchemes.isEmpty
    && c.links.isEmpty && c.callbacks.isEmpty && c.extensions.isEmpty

end Components

def freshVersion : String := "3.0.3"

structure OpenApi where
  version : String := freshVersion
  info : Option Info := none
  servers : List Server := []
  paths : Ordered PathItem := {}
  components : Option Components := none
  security : List SecurityRequirement := []
  tags : List Tag := []
  externalDocs : Option ExternalDocs := none
  extensions : Extensions := {}

namespace OpenApi

def tag? (d : OpenApi) (name : String) : Option Tag := d.tags.find? fun t => t.name = name

def addTag (d : OpenApi) (tag : Tag) : OpenApi :=
  if (d.tag? tag.name).isSome then d else { d with tags := d.tags ++ [tag] }

def operations (d : OpenApi) : List (String × HttpMethod × Operation) :=
  d.paths.entries.flatMap fun row => row.2.operations.map fun op => (row.1, op.1, op.2)

def componentsOrNew (d : OpenApi) : Components := d.components.getD {}

end OpenApi

inductive ComponentKind where
  | schemas
  | responses
  | parameters
  | examples
  | requestBodies
  | headers
  | securitySchemes
  | links
  | callbacks
  deriving DecidableEq, Repr

namespace ComponentKind

def all : List ComponentKind :=
  [.schemas, .responses, .parameters, .examples, .requestBodies, .headers, .securitySchemes,
    .links, .callbacks]

def name : ComponentKind → String
  | .schemas => "schemas"
  | .responses => "responses"
  | .parameters => "parameters"
  | .examples => "examples"
  | .requestBodies => "requestBodies"
  | .headers => "headers"
  | .securitySchemes => "securitySchemes"
  | .links => "links"
  | .callbacks => "callbacks"

/-- A name stands for the component of that name; a pointer stands for itself. -/
def pointer (kind : ComponentKind) (name : String) : String :=
  if name.startsWith "#" then name else "#/components/" ++ kind.name ++ "/" ++ name

end ComponentKind

namespace Schema

def refTo (name : String) : Schema := { reference := some (ComponentKind.schemas.pointer name) }

end Schema

end ApiDoc
