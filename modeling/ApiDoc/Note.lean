import ApiDoc.TypeExpr
import ApiDoc.Document.Basic

/-!
# Notes

What an annotation says about a node of the document, exactly as it was
written: bounds are still text, values may or may not be JSON, and schemas are
named by types. A note is checked when a node is made of it, never before.
-/

set_option autoImplicit false

namespace ApiDoc

structure ExternalDocsNote where
  url : String := ""
  description : Option String := none
  deriving Inhabited

structure ExtensionNote where
  name : String := ""
  value : String := ""
  parsed : Bool := false
  deriving Inhabited

structure MappingNote where
  value : String
  type : TypeExpr
  deriving Inhabited

/-- A note on a schema. `name`, `hidden` and `required` speak of the place that
the schema takes, `reference` and `implementation` of where it comes from. -/
structure SchemaNote where
  name : Option String := none
  title : Option String := none
  description : Option String := none
  type : Option String := none
  format : Option String := none
  implementation : Option TypeExpr := none
  reference : Option String := none
  minimum : Option String := none
  maximum : Option String := none
  multipleOf : Option String := none
  exclusiveMinimum : Option Bool := none
  exclusiveMaximum : Option Bool := none
  minLength : Option Nat := none
  maxLength : Option Nat := none
  pattern : Option String := none
  minItems : Option Nat := none
  maxItems : Option Nat := none
  uniqueItems : Option Bool := none
  minProperties : Option Nat := none
  maxProperties : Option Nat := none
  enumeration : List String := []
  nullable : Option Bool := none
  readOnly : Option Bool := none
  writeOnly : Option Bool := none
  deprecated : Option Bool := none
  default : Option String := none
  sample : Option String := none
  required : Option Bool := none
  hidden : Bool := false
  oneOf : List TypeExpr := []
  anyOf : List TypeExpr := []
  allOf : List TypeExpr := []
  negated : Option TypeExpr := none
  discriminator : Option String := none
  mapping : List MappingNote := []
  externalDocs : Option ExternalDocsNote := none
  extensions : List ExtensionNote := []
  deriving Inhabited

namespace SchemaNote

def replacesInference (n : SchemaNote) : Bool :=
  n.reference.isSome || n.type.isSome || n.implementation.isSome

end SchemaNote

structure ContactNote where
  name : Option String := none
  url : Option String := none
  email : Option String := none
  deriving Inhabited

structure LicenseNote where
  name : String := ""
  url : Option String := none
  deriving Inhabited

structure InfoNote where
  title : Option String := none
  version : Option String := none
  description : Option String := none
  termsOfService : Option String := none
  contact : Option ContactNote := none
  license : Option LicenseNote := none
  extensions : List ExtensionNote := []
  deriving Inhabited

structure TagNote where
  name : Option String := none
  reference : Option String := none
  description : Option String := none
  externalDocs : Option ExternalDocsNote := none
  extensions : List ExtensionNote := []
  deriving Inhabited

structure ServerVariableNote where
  name : String := ""
  default : String := ""
  enumeration : List String := []
  description : Option String := none
  deriving Inhabited

structure ServerNote where
  url : String := ""
  description : Option String := none
  placeholders : List ServerVariableNote := []
  extensions : List ExtensionNote := []
  deriving Inhabited

structure OAuthFlowNote where
  authorizationUrl : Option String := none
  tokenUrl : Option String := none
  refreshUrl : Option String := none
  scopes : List (String × String) := []
  deriving Inhabited

structure OAuthFlowsNote where
  implicit : Option OAuthFlowNote := none
  password : Option OAuthFlowNote := none
  clientCredentials : Option OAuthFlowNote := none
  authorizationCode : Option OAuthFlowNote := none
  deriving Inhabited

/-- `name` is the component that holds the scheme, `keyName` the header, query
or cookie name of an API key. -/
structure SecuritySchemeNote where
  name : String := ""
  type : Option SecuritySchemeType := none
  description : Option String := none
  keyName : Option String := none
  location : Option KeyLocation := none
  scheme : Option String := none
  bearerFormat : Option String := none
  flows : Option OAuthFlowsNote := none
  openIdConnectUrl : Option String := none
  reference : Option String := none
  extensions : List ExtensionNote := []
  deriving Inhabited

structure SchemeUse where
  name : String := ""
  scopes : List String := []
  deriving Inhabited

abbrev SchemeSet := List SchemeUse

structure ExampleNote where
  name : String := ""
  summary : Option String := none
  description : Option String := none
  value : Option String := none
  externalValue : Option String := none
  parsed : Bool := false
  reference : Option String := none
  deriving Inhabited

structure ContentNote where
  mediaType : Option String := none
  schema : Option SchemaNote := none
  sample : Option String := none
  examples : List ExampleNote := []
  deriving Inhabited

structure HeaderNote where
  name : String := ""
  description : Option String := none
  required : Option Bool := none
  deprecated : Option Bool := none
  schema : Option SchemaNote := none
  reference : Option String := none
  extensions : List ExtensionNote := []
  deriving Inhabited

structure LinkNote where
  name : String := ""
  operationId : Option String := none
  operationRef : Option String := none
  description : Option String := none
  parameters : List (String × String) := []
  requestBody : Option String := none
  server : Option ServerNote := none
  reference : Option String := none
  extensions : List ExtensionNote := []
  deriving Inhabited

structure ParameterNote where
  name : Option String := none
  location : Option ParameterLocation := none
  description : Option String := none
  required : Option Bool := none
  deprecated : Option Bool := none
  allowEmptyValue : Option Bool := none
  style : Option ParameterStyle := none
  explode : Option Bool := none
  allowReserved : Option Bool := none
  schema : Option SchemaNote := none
  sample : Option String := none
  examples : List ExampleNote := []
  content : List ContentNote := []
  reference : Option String := none
  hidden : Bool := false
  extensions : List ExtensionNote := []
  deriving Inhabited

structure BodyNote where
  description : Option String := none
  required : Option Bool := none
  content : List ContentNote := []
  reference : Option String := none
  extensions : List ExtensionNote := []
  deriving Inhabited

structure ResponseNote where
  status : String := ""
  description : Option String := none
  content : List ContentNote := []
  headers : List HeaderNote := []
  links : List LinkNote := []
  reference : Option String := none
  extensions : List ExtensionNote := []
  deriving Inhabited

structure OperationNote where
  summary : Option String := none
  description : Option String := none
  operationId : Option String := none
  deprecated : Option Bool := none
  hidden : Bool := false
  deriving Inhabited

structure CallbackOperationNote where
  method : HttpMethod
  summary : Option String := none
  description : Option String := none
  parameters : List ParameterNote := []
  requestBody : Option BodyNote := none
  responses : List ResponseNote := []

structure CallbackNote where
  name : String := ""
  expression : String := ""
  operations : List CallbackOperationNote := []
  reference : Option String := none
  deriving Inhabited

structure DefinitionNote where
  info : Option InfoNote := none
  servers : List ServerNote := []
  tags : List TagNote := []
  security : List SchemeSet := []
  externalDocs : Option ExternalDocsNote := none
  extensions : List ExtensionNote := []
  deriving Inhabited

namespace DefinitionNote

def append (a b : DefinitionNote) : DefinitionNote where
  info := a.info.orElse fun _ => b.info
  servers := a.servers ++ b.servers
  tags := a.tags ++ b.tags
  security := a.security ++ b.security
  externalDocs := a.externalDocs.orElse fun _ => b.externalDocs
  extensions := a.extensions ++ b.extensions

instance : Append DefinitionNote := ⟨append⟩

theorem append_assoc (a b c : DefinitionNote) : a ++ b ++ c = a ++ (b ++ c) := by
  change append (append a b) c = append a (append b c)
  simp [append, Option.or_assoc]

end DefinitionNote

end ApiDoc
