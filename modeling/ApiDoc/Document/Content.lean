import ApiDoc.Document.Schema

/-!
# Payloads: media types, headers, parameters, bodies and responses

A media type may describe the headers of its parts, and a header may have
content of its own, so the three are tied together through media types.
-/

set_option autoImplicit false

namespace ApiDoc

inductive ParameterLocation where
  | path
  | query
  | header
  | cookie
  deriving DecidableEq, Repr

namespace ParameterLocation

def all : List ParameterLocation := [.path, .query, .header, .cookie]

def name : ParameterLocation → String
  | .path => "path"
  | .query => "query"
  | .header => "header"
  | .cookie => "cookie"

def ofName? (s : String) : Option ParameterLocation :=
  all.find? fun l => l.name = String.ofList (s.toList.map Char.toLower)

end ParameterLocation

inductive ParameterStyle where
  | matrix
  | label
  | form
  | simple
  | spaceDelimited
  | pipeDelimited
  | deepObject
  deriving DecidableEq, Repr

namespace ParameterStyle

def all : List ParameterStyle :=
  [.matrix, .label, .form, .simple, .spaceDelimited, .pipeDelimited, .deepObject]

def name : ParameterStyle → String
  | .matrix => "matrix"
  | .label => "label"
  | .form => "form"
  | .simple => "simple"
  | .spaceDelimited => "spaceDelimited"
  | .pipeDelimited => "pipeDelimited"
  | .deepObject => "deepObject"

def ofName? (s : String) : Option ParameterStyle := all.find? fun p => p.name = s

end ParameterStyle

structure Example where
  reference : Option String := none
  summary : Option String := none
  description : Option String := none
  value : Option Json := none
  externalValue : Option String := none
  extensions : Extensions := {}

structure HeaderOf (media : Type) where
  reference : Option String := none
  description : Option String := none
  required : Option Bool := none
  deprecated : Option Bool := none
  allowEmptyValue : Option Bool := none
  style : Option ParameterStyle := none
  explode : Option Bool := none
  schema : Option Schema := none
  sample : Option Json := none
  examples : Ordered Example := {}
  content : Ordered media := {}
  extensions : Extensions := {}

structure EncodingOf (media : Type) where
  contentType : Option String := none
  headers : Ordered (HeaderOf media) := {}
  style : Option ParameterStyle := none
  explode : Option Bool := none
  allowReserved : Option Bool := none
  extensions : Extensions := {}

structure MediaType where
  schema : Option Schema := none
  sample : Option Json := none
  examples : Ordered Example := {}
  encoding : Ordered (EncodingOf MediaType) := {}
  extensions : Extensions := {}
  deriving Inhabited

abbrev Header := HeaderOf MediaType

abbrev Encoding := EncodingOf MediaType

abbrev Content := Ordered MediaType

namespace MediaType

def ofSchema (s : Schema) : MediaType := { schema := some s }

mutual
def height : MediaType → Nat
  | ⟨_, _, _, encoding, _⟩ => heightEncodings encoding.rows + 1
def heightEncodings {keys : List String} : Ordered.Rows (EncodingOf MediaType) keys → Nat
  | .nil => 0
  | .cons ⟨_, headers, _, _, _, _⟩ rows => max (heightHeaders headers.rows) (heightEncodings rows)
def heightHeaders {keys : List String} : Ordered.Rows (HeaderOf MediaType) keys → Nat
  | .nil => 0
  | .cons ⟨_, _, _, _, _, _, _, _, _, _, content, _⟩ rows =>
    max (heightContent content.rows) (heightHeaders rows)
def heightContent {keys : List String} : Ordered.Rows MediaType keys → Nat
  | .nil => 0
  | .cons m rows => max m.height (heightContent rows)
end

end MediaType

structure Parameter where
  reference : Option String := none
  name : Option String := none
  location : Option ParameterLocation := none
  description : Option String := none
  required : Option Bool := none
  deprecated : Option Bool := none
  allowEmptyValue : Option Bool := none
  style : Option ParameterStyle := none
  explode : Option Bool := none
  allowReserved : Option Bool := none
  schema : Option Schema := none
  sample : Option Json := none
  examples : Ordered Example := {}
  content : Content := {}
  extensions : Extensions := {}

structure RequestBody where
  reference : Option String := none
  description : Option String := none
  content : Content := {}
  required : Option Bool := none
  extensions : Extensions := {}

structure ServerVariable where
  default : String := ""
  enumeration : List String := []
  description : Option String := none
  extensions : Extensions := {}

structure Server where
  url : String := ""
  description : Option String := none
  placeholders : Ordered ServerVariable := {}
  extensions : Extensions := {}

structure Link where
  reference : Option String := none
  operationRef : Option String := none
  operationId : Option String := none
  parameters : Ordered Json := {}
  requestBody : Option Json := none
  description : Option String := none
  server : Option Server := none
  extensions : Extensions := {}

structure Response where
  reference : Option String := none
  description : Option String := none
  headers : Ordered Header := {}
  content : Content := {}
  links : Ordered Link := {}
  extensions : Extensions := {}

/-- Responses by status, of which one may be designated the default. The
designation is a status and not a second copy of the response. -/
structure Responses where
  entries : Ordered Response := {}
  designated : Option String := none

namespace Responses

def designate (r : Responses) (status : String) : Responses :=
  if r.entries.contains status then { r with designated := some status } else r

def default? (r : Responses) : Option Response :=
  (r.designated.bind r.entries.get?).orElse fun _ => r.entries.get? "default"

def prune (r : Responses) : Responses :=
  match r.designated with
  | some status => if r.entries.contains status then r else { r with designated := none }
  | none => r

end Responses

end ApiDoc
