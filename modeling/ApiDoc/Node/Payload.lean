import ApiDoc.Inference.Basic

/-!
# Nodes that carry schemas

Notes on payloads name schemas by types, so their nodes are made with the
inference of types at hand. A note without a schema of its own may fall back
on the type of the argument or result that it describes.
-/

set_option autoImplicit false

namespace ApiDoc

open Inference (Gen)

namespace SchemaNote

def orOf (infer : TypeExpr → Gen Schema) (note : Option SchemaNote) (type : Option TypeExpr) :
    Gen (Option Schema) :=
  match note, type with
  | none, none => pure none
  | none, some t => do
    let s ← infer t
    pure (some s)
  | some n, some t => do
    let s ← Inference.member infer t (some n)
    pure (some s)
  | some n, none => do
    let s ← Inference.explicit infer n
    pure (if n.replacesInference || !s.isBlank then some s else none)

end SchemaNote

namespace HeaderNote

def node (infer : TypeExpr → Gen Schema) (n : HeaderNote) : Gen Header :=
  match n.reference with
  | some r => pure { reference := some (ComponentKind.headers.pointer r) }
  | none => do
    let schema ← SchemaNote.orOf infer n.schema none
    let extensions ← Gen.check (Literal.extensions n.extensions)
    pure {
      description := n.description
      required := n.required
      deprecated := n.deprecated
      schema := some (schema.getD (.ofType .string))
      extensions }

end HeaderNote

def anyMediaType : String := "*/*"

namespace ContentNote

def mediaTypes (named : Option String) (effective : List String) : List String :=
  match named, effective with
  | some m, _ => [m]
  | none, [] => [anyMediaType]
  | none, ms => ms

def node (infer : TypeExpr → Gen Schema) (fallback : Option TypeExpr) (n : ContentNote) :
    Gen MediaType := do
  let schema ← SchemaNote.orOf infer n.schema fallback
  let examples ← Gen.check (ExampleNote.table n.examples)
  pure { schema, sample := n.sample.map (Literal.value none), examples }

def table (infer : TypeExpr → Gen Schema) (effective : List String) (fallback : Option TypeExpr)
    (notes : List ContentNote) : Gen Content :=
  notes.foldlM (fun content n => do
    let media ← n.node infer fallback
    pure (content.putAll ((mediaTypes n.mediaType effective).map fun m => (m, media)))) {}

def inferred (infer : TypeExpr → Gen Schema) (effective : List String) (t : TypeExpr) :
    Gen Content := do
  let s ← infer t
  pure (Ordered.ofRows ((mediaTypes none effective).map fun m => (m, MediaType.ofSchema s)))

end ContentNote

namespace ResponseNote

def descriptions : List (String × String) :=
  [("200", "OK"), ("201", "Created"), ("202", "Accepted"), ("204", "No Content"),
    ("400", "Bad Request"), ("401", "Unauthorized"), ("403", "Forbidden"), ("404", "Not Found"),
    ("409", "Conflict"), ("422", "Unprocessable Entity"), ("500", "Internal Server Error"),
    ("default", "default response")]

def defaultDescription (status : String) : String :=
  (descriptions.lookup status).getD ("Response " ++ status)

def headerTable (infer : TypeExpr → Gen Schema) (notes : List HeaderNote) : Gen (Ordered Header) :=
  notes.foldlM (fun headers n => do
    let h ← n.node infer
    pure (headers.put n.name h)) {}

def linkTable (notes : List LinkNote) : Except Failure (Ordered Link) :=
  (notes.mapM fun (n : LinkNote) => n.node.map fun l => (n.name, l)).map Ordered.ofRows

def node (infer : TypeExpr → Gen Schema) (produces : List String) (fallback : Option TypeExpr)
    (n : ResponseNote) : Gen Response :=
  match n.reference with
  | some r => pure { reference := some (ComponentKind.responses.pointer r) }
  | none => do
    let content ← ContentNote.table infer produces fallback n.content
    let extensions ← Gen.check (Literal.extensions n.extensions)
    let headers ← headerTable infer n.headers
    let links ← Gen.check (linkTable n.links)
    pure {
      description := some (n.description.getD (defaultDescription n.status))
      headers, content, links, extensions }

end ResponseNote

namespace BodyNote

def payload (infer : TypeExpr → Gen Schema) (consumes : List String) (fallback : Option TypeExpr)
    (n : BodyNote) : Gen Content :=
  match n.content, fallback with
  | [], some t => ContentNote.inferred infer consumes t
  | entries, _ => ContentNote.table infer consumes fallback entries

def node (infer : TypeExpr → Gen Schema) (consumes : List String) (fallback : Option TypeExpr)
    (n : BodyNote) : Gen RequestBody :=
  match n.reference with
  | some r => pure { reference := some (ComponentKind.requestBodies.pointer r) }
  | none => do
    let content ← n.payload infer consumes fallback
    let extensions ← Gen.check (Literal.extensions n.extensions)
    pure { description := n.description, content, required := n.required, extensions }

end BodyNote

namespace ParameterNote

def node (infer : TypeExpr → Gen Schema) (fallback : Option TypeExpr) (n : ParameterNote) :
    Gen Parameter :=
  match n.reference with
  | some r => pure { reference := some (ComponentKind.parameters.pointer r) }
  | none => do
    let extensions ← Gen.check (Literal.extensions n.extensions)
    let examples ← Gen.check (ExampleNote.table n.examples)
    let plain : Parameter := {
      name := n.name
      location := n.location
      description := n.description
      required := n.required
      deprecated := n.deprecated
      allowEmptyValue := n.allowEmptyValue
      style := n.style
      explode := n.explode
      allowReserved := n.allowReserved
      sample := n.sample.map (Literal.value none)
      examples, extensions }
    if n.content.isEmpty then do
      let schema ← SchemaNote.orOf infer n.schema fallback
      pure { plain with schema }
    else do
      let content ← ContentNote.table infer [] fallback n.content
      pure { plain with content }

end ParameterNote

namespace CallbackOperationNote

def parameterList (infer : TypeExpr → Gen Schema) (notes : List ParameterNote) :
    Gen (List Parameter) :=
  notes.foldlM (fun ps n => do
    let p ← n.node infer none
    pure (ps ++ [p])) []

def body? (infer : TypeExpr → Gen Schema) : Option BodyNote → Gen (Option RequestBody)
  | none => pure none
  | some n => do
    let body ← n.node infer [] none
    pure (some body)

def responseTable (infer : TypeExpr → Gen Schema) (notes : List ResponseNote) :
    Gen (Ordered Response) :=
  notes.foldlM (fun rs n => do
    let r ← n.node infer [] none
    pure (rs.put n.status r)) {}

def node (infer : TypeExpr → Gen Schema) (n : CallbackOperationNote) : Gen Operation := do
  let parameters ← parameterList infer n.parameters
  let requestBody ← body? infer n.requestBody
  let responses ← responseTable infer n.responses
  pure {
    summary := n.summary
    description := n.description
    parameters, requestBody
    responses := some { entries := responses } }

end CallbackOperationNote

namespace CallbackNote

/-- Without an expression there is no path to put the operations under. -/
def node (infer : TypeExpr → Gen Schema) (n : CallbackNote) : Gen Callback :=
  match n.reference with
  | some r => pure { reference := some (ComponentKind.callbacks.pointer r) }
  | none => do
    let item ← n.operations.foldlM (fun (item : PathItem) o => do
      let operation ← o.node infer
      pure { item with slots := item.slots.set o.method (some operation) }) {}
    pure (if n.expression.isEmpty then {}
      else { expressions := Ordered.ofRows [(n.expression, item)] })

end CallbackNote

end ApiDoc
