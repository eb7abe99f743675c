import ApiDoc.Form.Note
import ApiDoc.Endpoint

/-!
# The JSON form of inventories
-/

set_option autoImplicit false

namespace ApiDoc

namespace Datum

def onlyRow? : Datum → Option (String × Datum)
  | .table [(k, d)] => k.text?.map fun k => (k, d)
  | _ => none

end Datum

def FieldDecl.codec : Codec FieldDecl := Codec.ofFields default [
  ⟨"name", .plainText, (·.name), fun r v => { r with name := v }⟩,
  ⟨"ty", .always TypeExpr.codec, (·.type), fun r v => { r with type := v }⟩,
  ⟨"rename", .optional .text, (·.rename), fun r v => { r with rename := v }⟩,
  ⟨"skip", .plainFlag, (·.skipped), fun r v => { r with skipped := v }⟩,
  ⟨"flatten", .plainFlag, (·.flattened), fun r v => { r with flattened := v }⟩,
  ⟨"schema", .optional SchemaNote.codec, (·.schema), fun r v => { r with schema := v }⟩,
  ⟨"deprecated", .plainFlag, (·.deprecated), fun r v => { r with deprecated := v }⟩]

def VariantPayload.codec : Codec VariantPayload where
  encode
    | .unit => .null
    | .newtype t => .object [("newtype", TypeExpr.toJson t)]
    | .struct fs => .object [("struct", (Codec.list FieldDecl.codec).encode fs)]
    | .tuple ts => .object [("tuple", .array (ts.map TypeExpr.toJson))]
  decode d :=
    match Datum.onlyRow? d with
    | some ("newtype", d) => (TypeExpr.ofDatum? d).map .newtype
    | some ("struct", d) => ((Codec.list FieldDecl.codec).decode d).map .struct
    | some ("tuple", d) => ((Codec.list TypeExpr.codec).decode d).map .tuple
    | _ => if d.text? = some "unit" then some .unit else none

def VariantPayload.cell : Cell VariantPayload where
  write
    | .unit => none
    | p => some (VariantPayload.codec.encode p)
  read := VariantPayload.codec.decode

def VariantDecl.codec : Codec VariantDecl := Codec.ofFields default [
  ⟨"name", .plainText, (·.name), fun r v => { r with name := v }⟩,
  ⟨"rename", .optional .text, (·.rename), fun r v => { r with rename := v }⟩,
  ⟨"fields", VariantPayload.cell, (·.payload), fun r v => { r with payload := v }⟩]

def TypeShape.codec : Codec TypeShape where
  encode
    | .struct fs => .object [("struct", (Codec.list FieldDecl.codec).encode fs)]
    | .enum vs => .object [("enum", (Codec.list VariantDecl.codec).encode vs)]
    | .newtype t => .object [("newtype", TypeExpr.toJson t)]
  decode d :=
    match Datum.onlyRow? d with
    | some ("struct", d) => ((Codec.list FieldDecl.codec).decode d).map .struct
    | some ("enum", d) => ((Codec.list VariantDecl.codec).decode d).map .enum
    | some ("newtype", d) => (TypeExpr.ofDatum? d).map .newtype
    | _ => none

def TypeDecl.codec : Codec TypeDecl := Codec.ofFields default [
  ⟨"name", .plainText, (·.name), fun r v => { r with name := v }⟩,
  ⟨"generics", .list .text, (·.generics), fun r v => { r with generics := v }⟩,
  ⟨"kind", .always TypeShape.codec, (·.shape), fun r v => { r with shape := v }⟩,
  ⟨"schema", .optional SchemaNote.codec, (·.schema), fun r v => { r with schema := v }⟩,
  ⟨"deprecated", .plainFlag, (·.deprecated), fun r v => { r with deprecated := v }⟩]

def Binding.codec : Codec Binding := Codec.ofFields { location := .query, name := "" } [
  ⟨"location", .always ParameterLocation.codec, (·.location), fun r v => { r with location := v }⟩,
  ⟨"name", .plainText, (·.name), fun r v => { r with name := v }⟩]

def Argument.codec : Codec Argument := Codec.ofFields default [
  ⟨"name", .plainText, (·.name), fun r v => { r with name := v }⟩,
  ⟨"ty", .always TypeExpr.codec, (·.type), fun r v => { r with type := v }⟩,
  ⟨"binding", .optional Binding.codec, (·.binding), fun r v => { r with binding := v }⟩,
  ⟨"injected", .plainFlag, (·.injected), fun r v => { r with injected := v }⟩,
  ⟨"suspended", .plainFlag, (·.suspended), fun r v => { r with suspended := v }⟩,
  ⟨"parameter", .optional ParameterNote.codec, (·.parameter), fun r v => { r with parameter := v }⟩,
  ⟨"request_body", .optional BodyNote.codec, (·.requestBody),
    fun r v => { r with requestBody := v }⟩]

def Handler.codec : Codec Handler := Codec.ofFields {} [
  ⟨"name", .plainText, (·.name), fun r v => { r with name := v }⟩,
  ⟨"verb", .optional HttpMethod.codec, (·.verb), fun r v => { r with verb := v }⟩,
  ⟨"path", .optional .text, (·.path), fun r v => { r with path := v }⟩,
  ⟨"operation", .optional OperationNote.codec, (·.operation), fun r v => { r with operation := v }⟩,
  ⟨"deprecated", .plainFlag, (·.deprecated), fun r v => { r with deprecated := v }⟩,
  ⟨"params", .list Argument.codec, (·.arguments), fun r v => { r with arguments := v }⟩,
  ⟨"return_type", .optional TypeExpr.codec, (·.returnType), fun r v => { r with returnType := v }⟩,
  ⟨"parameters", .list ParameterNote.codec, (·.parameters), fun r v => { r with parameters := v }⟩,
  ⟨"request_body", .optional BodyNote.codec, (·.requestBody),
    fun r v => { r with requestBody := v }⟩,
  ⟨"responses", .list ResponseNote.codec, (·.responses), fun r v => { r with responses := v }⟩,
  ⟨"tags", .list TagNote.codec, (·.tags), fun r v => { r with tags := v }⟩,
  ⟨"security", .list SchemeSet.codec, (·.security), fun r v => { r with security := v }⟩,
  ⟨"servers", .list ServerNote.codec, (·.servers), fun r v => { r with servers := v }⟩,
  ⟨"produces", .list .text, (·.produces), fun r v => { r with produces := v }⟩,
  ⟨"consumes", .list .text, (·.consumes), fun r v => { r with consumes := v }⟩,
  ⟨"callbacks", .list CallbackNote.codec, (·.callbacks), fun r v => { r with callbacks := v }⟩,
  ⟨"external_docs", .optional ExternalDocsNote.codec, (·.externalDocs),
    fun r v => { r with externalDocs := v }⟩,
  ⟨"extensions", .list ExtensionNote.codec, (·.extensions), fun r v => { r with extensions := v }⟩]

def Endpoint.codec : Codec Endpoint := Codec.ofFields {} [
  ⟨"name", .plainText, (·.name), fun r v => { r with name := v }⟩,
  ⟨"path", .optional .text, (·.path), fun r v => { r with path := v }⟩,
  ⟨"tags", .list TagNote.codec, (·.tags), fun r v => { r with tags := v }⟩,
  ⟨"security", .list SchemeSet.codec, (·.security), fun r v => { r with security := v }⟩,
  ⟨"servers", .list ServerNote.codec, (·.servers), fun r v => { r with servers := v }⟩,
  ⟨"produces", .list .text, (·.produces), fun r v => { r with produces := v }⟩,
  ⟨"consumes", .list .text, (·.consumes), fun r v => { r with consumes := v }⟩,
  ⟨"responses", .list ResponseNote.codec, (·.responses), fun r v => { r with responses := v }⟩,
  ⟨"extensions", .list ExtensionNote.codec, (·.extensions), fun r v => { r with extensions := v }⟩,
  ⟨"methods", .list Handler.codec, (·.handlers), fun r v => { r with handlers := v }⟩]

def Inventory.codec : Codec Inventory := Codec.ofFields {} [
  ⟨"types", .list TypeDecl.codec, (·.types.values),
    fun r v => { r with types := Catalog.ofList v }⟩,
  ⟨"endpoints", .list Endpoint.codec, (·.endpoints), fun r v => { r with endpoints := v }⟩,
  ⟨"definition", .always DefinitionNote.codec, (·.definition),
    fun r v => { r with definition := v }⟩,
  ⟨"security_schemes", .list SecuritySchemeNote.codec, (·.securitySchemes),
    fun r v => { r with securitySchemes := v }⟩,
  ⟨"base_path", .optional .text, (·.basePath), fun r v => { r with basePath := v }⟩]

end ApiDoc
