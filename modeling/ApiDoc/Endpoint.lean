import ApiDoc.Declaration

/-!
# Endpoints

An endpoint is a named group of handlers under a common path. A handler's
arguments are bound to a place in the request, injected by the framework,
suspended, or left over for the request body.
-/

set_option autoImplicit false

namespace ApiDoc

structure Binding where
  location : ParameterLocation
  name : String

structure Argument where
  name : String
  type : TypeExpr
  binding : Option Binding := none
  injected : Bool := false
  suspended : Bool := false
  parameter : Option ParameterNote := none
  requestBody : Option BodyNote := none
  deriving Inhabited

namespace Argument

def mayBeBody (a : Argument) : Bool :=
  a.binding.isNone && a.parameter.isNone && !a.injected && !a.suspended

end Argument

structure Handler where
  name : String := ""
  verb : Option HttpMethod := none
  path : Option String := none
  operation : Option OperationNote := none
  deprecated : Bool := false
  arguments : List Argument := []
  returnType : Option TypeExpr := none
  parameters : List ParameterNote := []
  requestBody : Option BodyNote := none
  responses : List ResponseNote := []
  tags : List TagNote := []
  security : List SchemeSet := []
  servers : List ServerNote := []
  produces : List String := []
  consumes : List String := []
  callbacks : List CallbackNote := []
  externalDocs : Option ExternalDocsNote := none
  extensions : List ExtensionNote := []
  deriving Inhabited

namespace Handler

def argument? (h : Handler) (name : String) : Option Argument :=
  (h.arguments.find? fun a => a.binding.any (·.name = name)).orElse fun _ =>
    h.arguments.find? (·.name = name)

def bodyArgument? (h : Handler) : Option Argument := h.arguments.find? (·.mayBeBody)

end Handler

structure Endpoint where
  name : String := ""
  path : Option String := none
  tags : List TagNote := []
  security : List SchemeSet := []
  servers : List ServerNote := []
  produces : List String := []
  consumes : List String := []
  responses : List ResponseNote := []
  extensions : List ExtensionNote := []
  handlers : List Handler := []
  deriving Inhabited

structure Inventory where
  types : Catalog := {}
  endpoints : List Endpoint := []
  definition : DefinitionNote := {}
  securitySchemes : List SecuritySchemeNote := []
  basePath : Option String := none
  deriving Inhabited

end ApiDoc
