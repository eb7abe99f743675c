import ApiDoc.Endpoint
import ApiDoc.Node.Payload

/-!
# Request body and responses of a handler

A handler without response notes has one response, which its return type
determines once wrappers have been looked through.
-/

set_option autoImplicit false

namespace ApiDoc.Assembly

open Inference (Gen)

def orInherited {α : Type} (own inherited : List α) : List α :=
  if own.isEmpty then inherited else own

/-- The note of the handler wins over that of the body argument, and either
over inference from the argument's type. -/
def requestBody (infer : TypeExpr → Gen Schema) (e : Endpoint) (h : Handler) :
    Gen (Option RequestBody) :=
  let argument := h.bodyArgument?
  let consumes := orInherited h.consumes e.consumes
  match h.requestBody.orElse fun _ => argument.bind (·.requestBody), argument with
  | some n, _ => do
    let body ← n.node infer consumes (argument.map (·.type))
    pure (some body)
  | none, none => pure none
  | none, some a => do
    let content ← ContentNote.inferred infer consumes a.type
    pure (some { content, required := some (!a.type.isOption) })

def untypedResponders : List String :=
  ["HttpResponse", "Response", "Responder", "IntoResponse", "StatusCode", "HttpResponseBuilder",
    "Redirect"]

def bodyWrappers : List String := ["Result", "Json", "Form"]

inductive Returned where
  | nothing
  | untyped
  | typed (type : TypeExpr)

mutual
/-- What remains when wrappers are taken off: the first argument of a wrapper,
the last member of a tuple. A declared type is never taken apart. -/
def returned (catalog : Catalog) : TypeExpr → Returned
  | ⟨name, args⟩ =>
    if catalog.contains name then .typed ⟨name, args⟩
    else if name = TypeExpr.tupleName then (lastReturned catalog args).getD .nothing
    else if bodyWrappers.contains name then
      (firstReturned catalog args).getD (.typed ⟨name, args⟩)
    else if untypedResponders.contains name then .untyped
    else .typed ⟨name, args⟩
def lastReturned (catalog : Catalog) : List TypeExpr → Option Returned
  | [] => none
  | [t] => some (returned catalog t)
  | _ :: t :: ts => lastReturned catalog (t :: ts)
def firstReturned (catalog : Catalog) : List TypeExpr → Option Returned
  | [] => none
  | t :: _ => some (returned catalog t)
end

def returnedBy (catalog : Catalog) (h : Handler) : Returned :=
  match h.returnType with
  | some t => returned catalog t.delivered
  | none => .nothing

def responseNotes (e : Endpoint) (h : Handler) : List ResponseNote :=
  h.responses ++ e.responses.filter fun r => !h.responses.any (·.status = r.status)

def statusKey (n : ResponseNote) : String := if n.status.isEmpty then "default" else n.status

def notedResponses (infer : TypeExpr → Gen Schema) (produces : List String)
    (fallback : Option TypeExpr) (notes : List ResponseNote) : Gen (Ordered Response) :=
  notes.foldlM (fun responses n => do
    let r ← n.node infer produces fallback
    pure (responses.put (statusKey n) r)) {}

def onlyResponse (status : String) (content : Content) : Responses :=
  let r : Response := {
    description := some (ResponseNote.defaultDescription status)
    content }
  ({ entries := Ordered.ofRows [(status, r)] } : Responses).designate status

def responses (catalog : Catalog) (infer : TypeExpr → Gen Schema) (e : Endpoint) (h : Handler) :
    Gen Responses :=
  let produces := orInherited h.produces e.produces
  match responseNotes e h, returnedBy catalog h with
  | [], .nothing =>
    pure (onlyResponse (if h.arguments.any (·.suspended) then "200" else "204") {})
  | [], .untyped => pure (onlyResponse "200" {})
  | [], .typed t => do
    let content ← ContentNote.inferred infer produces t
    pure (onlyResponse "200" content)
  | notes, kind => do
    let fallback := match kind with
      | .typed t => some t
      | _ => none
    let entries ← notedResponses infer produces fallback notes
    pure { entries }

end ApiDoc.Assembly
