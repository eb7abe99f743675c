import ApiDoc.Attribute.Schema

/-!
# Notes on contents, headers, links, responses, bodies and parameters
-/

set_option autoImplicit false

namespace ApiDoc.Attribute

def example_ : Vocabulary ExampleNote := ⟨"example", {}, [
  .text "name" fun n v => { n with name := v },
  .text "summary" fun n v => { n with summary := some v },
  .text "description" fun n v => { n with description := some v },
  .anyText "value" fun n v => { n with value := some v },
  .text "external_value" fun n v => { n with externalValue := some v },
  .flag "parse_value" fun n v => { n with parsed := v },
  .text "ref" fun n v => { n with reference := some v }]⟩

def exampleEntry {ρ : Type} (putOne : ρ → String → ρ) (putNote : ρ → ExampleNote → ρ) :
    Entry ρ :=
  ("example", fun r => do
    if ← Arguments.ahead (Source.Trees.isGroup .parenthesis) then
      return putNote r (← example_.nested)
    else return putOne r (← Arguments.anyText))

def content : Vocabulary ContentNote := ⟨"content", {}, [
  .text "media_type" fun n v => { n with mediaType := some v },
  schema.under "schema" fun n v => { n with schema := some v },
  exampleEntry (fun n v => { n with sample := some v })
    fun n v => { n with examples := n.examples ++ [v] }]⟩

def header : Vocabulary HeaderNote := ⟨"header", {}, [
  .text "name" fun n v => { n with name := v },
  .text "description" fun n v => { n with description := some v },
  .flag "required" fun n v => { n with required := some v },
  .flag "deprecated" fun n v => { n with deprecated := some v },
  schema.under "schema" fun n v => { n with schema := some v },
  .text "ref" fun n v => { n with reference := some v },
  extensionNote.under "extension" fun n v => { n with extensions := n.extensions ++ [v] }]⟩

def serverVariable : Vocabulary ServerVariableNote := ⟨"server variable", {}, [
  .text "name" fun n v => { n with name := v },
  .anyText "default" fun n v => { n with default := v },
  .texts "enumeration" fun n v => { n with enumeration := v },
  .texts "allowable_values" fun n v => { n with enumeration := v },
  .text "description" fun n v => { n with description := some v }]⟩

def server : Vocabulary ServerNote := ⟨"server", {}, [
  .text "url" fun n v => { n with url := v },
  .text "description" fun n v => { n with description := some v },
  serverVariable.under "variable" fun n v => { n with placeholders := n.placeholders ++ [v] },
  extensionNote.under "extension" fun n v => { n with extensions := n.extensions ++ [v] }]⟩

def linkParameter : Vocabulary (String × String) := ⟨"link parameter", ("", ""), [
  .text "name" fun n v => (v, n.2),
  .text "expression" fun n v => (n.1, v)]⟩

def link : Vocabulary LinkNote := ⟨"link", {}, [
  .text "name" fun n v => { n with name := v },
  .text "operation_id" fun n v => { n with operationId := some v },
  .text "operation_ref" fun n v => { n with operationRef := some v },
  .text "description" fun n v => { n with description := some v },
  linkParameter.under "parameter" fun n v => { n with parameters := n.parameters ++ [v] },
  .text "request_body" fun n v => { n with requestBody := some v },
  server.under "server" fun n v => { n with server := some v },
  .text "ref" fun n v => { n with reference := some v },
  extensionNote.under "extension" fun n v => { n with extensions := n.extensions ++ [v] }]⟩

def response : Vocabulary ResponseNote := ⟨"api_response", {}, [
  .anyText "status" fun n v => { n with status := v },
  .anyText "response_code" fun n v => { n with status := v },
  .text "description" fun n v => { n with description := some v },
  content.under "content" fun n v => { n with content := n.content ++ [v] },
  header.under "header" fun n v => { n with headers := n.headers ++ [v] },
  link.under "link" fun n v => { n with links := n.links ++ [v] },
  .text "ref" fun n v => { n with reference := some v },
  extensionNote.under "extension" fun n v => { n with extensions := n.extensions ++ [v] }]⟩

def responseOf (a : Attribute) : Except Fault ResponseNote := do
  let n ← response.ofAttribute a
  if n.status.isEmpty && n.reference.isNone then throw .responseWithoutStatus
  else return n

def body : Vocabulary BodyNote := ⟨"request_body", {}, [
  .text "description" fun n v => { n with description := some v },
  .flag "required" fun n v => { n with required := some v },
  content.under "content" fun n v => { n with content := n.content ++ [v] },
  .text "ref" fun n v => { n with reference := some v },
  extensionNote.under "extension" fun n v => { n with extensions := n.extensions ++ [v] }]⟩

def parameter : Vocabulary ParameterNote := ⟨"parameter", {}, [
  .text "name" fun n v => { n with name := some v },
  .word ParameterLocation.ofName? .unknownLocation "in" fun n v => { n with location := some v },
  .text "description" fun n v => { n with description := some v },
  .flag "required" fun n v => { n with required := some v },
  .flag "deprecated" fun n v => { n with deprecated := some v },
  .flag "allow_empty_value" fun n v => { n with allowEmptyValue := some v },
  .word ParameterStyle.ofName? .unknownStyle "style" fun n v => { n with style := some v },
  .flag "explode" fun n v => { n with explode := some v },
  .flag "allow_reserved" fun n v => { n with allowReserved := some v },
  schema.under "schema" fun n v => { n with schema := some v },
  exampleEntry (fun n v => { n with sample := some v })
    fun n v => { n with examples := n.examples ++ [v] },
  content.under "content" fun n v => { n with content := n.content ++ [v] },
  .text "ref" fun n v => { n with reference := some v },
  .flag "hidden" fun n v => { n with hidden := v },
  extensionNote.under "extension" fun n v => { n with extensions := n.extensions ++ [v] }]⟩

end ApiDoc.Attribute
