import ApiDoc.Document.Basic

/-!
# Pruning a document

A policy is asked about every node: it gives the node back, possibly changed,
or nothing, which removes it. `Policy.prune` asks about a node before the
nodes inside it, keeps the order of what survives, and asks about the whole
document last. A policy that adds nodes says by `reach` how many levels its
additions can have.
-/

set_option autoImplicit false

namespace ApiDoc

structure Policy (m : Type → Type) where
  schema : Schema → m (Option Schema)
  response : Response → m (Option Response)
  parameter : Parameter → m (Option Parameter)
  sample : Example → m (Option Example)
  requestBody : RequestBody → m (Option RequestBody)
  header : Header → m (Option Header)
  securityScheme : SecurityScheme → m (Option SecurityScheme)
  link : Link → m (Option Link)
  callback : Callback → m (Option Callback)
  pathItem : String → PathItem → m (Option PathItem)
  operation : Operation → m (Option Operation)
  server : Server → m (Option Server)
  tag : Tag → m (Option Tag)
  requirement : SecurityRequirement → m (Option SecurityRequirement)
  document : OpenApi → m OpenApi
  reach : Nat := 0

namespace Policy

variable {m : Type → Type} [Monad m]

def keepAll : Policy m where
  schema s := pure (some s)
  response r := pure (some r)
  parameter p := pure (some p)
  sample e := pure (some e)
  requestBody b := pure (some b)
  header h := pure (some h)
  securityScheme s := pure (some s)
  link l := pure (some l)
  callback c := pure (some c)
  pathItem _ i := pure (some i)
  operation o := pure (some o)
  server s := pure (some s)
  tag t := pure (some t)
  requirement r := pure (some r)
  document d := pure d

section Collections

variable {α : Type}

def items (f : α → m (Option α)) : List α → m (List α)
  | [] => pure []
  | a :: as => do
    let kept ← f a
    let rest ← items f as
    pure (kept.toList ++ rest)

def rows (f : String → α → m (Option α)) (t : Ordered α) : m (Ordered α) := do
  let answers ← t.mapM f
  pure (answers.filterMap fun _ answer => answer)

def table (f : α → m (Option α)) (t : Ordered α) : m (Ordered α) := rows (fun _ => f) t

def slot (f : α → m (Option α)) : Option α → m (Option α)
  | some a => f a
  | none => pure none

def slots (f : α → m (Option α)) (s : ByMethod α) : m (ByMethod α) := do
  let get ← slot f s.get
  let put ← slot f s.put
  let post ← slot f s.post
  let delete ← slot f s.delete
  let options ← slot f s.options
  let head ← slot f s.head
  let patch ← slot f s.patch
  let trace ← slot f s.trace
  pure ⟨get, put, post, delete, options, head, patch, trace⟩

end Collections

def additional (f : Schema → m (Option Schema)) :
    Option (Additional Schema) → m (Option (Additional Schema))
  | some (.schema s) => do
    let s ← f s
    pure (s.map .schema)
  | other => pure other

def subschemas (f : Schema → m (Option Schema)) (s : Schema) : m Schema := do
  let properties ← table f s.properties
  let items' ← slot f s.items
  let negated ← slot f s.negated
  let allOf ← items f s.allOf
  let anyOf ← items f s.anyOf
  let oneOf ← items f s.oneOf
  let additional ← additional f s.additional
  pure { s with properties, items := items', negated, allOf, anyOf, oneOf, additional }

variable (p : Policy m)

def schemaWithin : Nat → Schema → m (Option Schema)
  | 0, s => pure (some s)
  | n + 1, s => do
    match ← p.schema s with
    | none => pure none
    | some s => do
      let s ← subschemas (schemaWithin n) s
      pure (some s)

def pruneSchema (s : Schema) : m (Option Schema) := p.schemaWithin (s.height + p.reach) s

def pruneMedia (media : MediaType) : m MediaType := do
  let schema ← slot p.pruneSchema media.schema
  let examples ← table p.sample media.examples
  pure { media with schema, examples }

def pruneContent (content : Content) : m Content :=
  table (fun media => do
    let media ← p.pruneMedia media
    pure (some media)) content

def pruneHeader (header : Header) : m (Option Header) := do
  match ← p.header header with
  | none => pure none
  | some h => do
    let schema ← slot p.pruneSchema h.schema
    let content ← p.pruneContent h.content
    pure (some { h with schema, content })

def pruneLink (link : Link) : m (Option Link) := do
  match ← p.link link with
  | none => pure none
  | some l => do
    let server ← slot p.server l.server
    pure (some { l with server })

def pruneParameter (parameter : Parameter) : m (Option Parameter) := do
  match ← p.parameter parameter with
  | none => pure none
  | some q => do
    let schema ← slot p.pruneSchema q.schema
    let examples ← table p.sample q.examples
    let content ← p.pruneContent q.content
    pure (some { q with schema, examples, content })

def pruneBody (body : RequestBody) : m (Option RequestBody) := do
  match ← p.requestBody body with
  | none => pure none
  | some b => do
    let content ← p.pruneContent b.content
    pure (some { b with content })

def pruneResponse (response : Response) : m (Option Response) := do
  match ← p.response response with
  | none => pure none
  | some r => do
    let headers ← table p.pruneHeader r.headers
    let content ← p.pruneContent r.content
    let links ← table p.pruneLink r.links
    pure (some { r with headers, content, links })

def pruneResponses (responses : Responses) : m Responses := do
  let entries ← table p.pruneResponse responses.entries
  pure ({ responses with entries } : Responses).prune

def insidePathItem (f : Operation → m (Option Operation)) (item : PathItem) : m PathItem := do
  let slots ← slots f item.slots
  let parameters ← items p.pruneParameter item.parameters
  let servers ← items p.server item.servers
  pure { item with slots, parameters, servers }

def callbackWith (f : Operation → m (Option Operation)) (callback : Callback) :
    m (Option Callback) := do
  match ← p.callback callback with
  | none => pure none
  | some c => do
    let expressions ← rows (fun path item => do
      match ← p.pathItem path item with
      | none => pure none
      | some item => do
        let item ← p.insidePathItem f item
        pure (some item)) c.expressions
    pure (some { c with expressions })

def pruneRequirements : Option (List SecurityRequirement) → m (Option (List SecurityRequirement))
  | none => pure none
  | some sets => do
    let sets ← items p.requirement sets
    pure (some sets)

def operationWithin : Nat → Operation → m (Option Operation)
  | 0, o => pure (some o)
  | n + 1, o => do
    match ← p.operation o with
    | none => pure none
    | some o => do
      let parameters ← items p.pruneParameter o.parameters
      let requestBody ← slot p.pruneBody o.requestBody
      let responses ← match o.responses with
        | some r => do
          let r ← p.pruneResponses r
          pure (some r)
        | none => pure none
      let callbacks ← table (p.callbackWith (operationWithin n)) o.callbacks
      let servers ← items p.server o.servers
      let security ← p.pruneRequirements o.security
      pure (some { o with parameters, requestBody, responses, callbacks, servers, security })

def pruneCallback (callback : Callback) : m (Option Callback) :=
  p.callbackWith (p.operationWithin (callback.height + p.reach)) callback

def prunePathItem (path : String) (item : PathItem) : m (Option PathItem) := do
  match ← p.pathItem path item with
  | none => pure none
  | some item => do
    let item ← p.insidePathItem (p.operationWithin (item.height + p.reach)) item
    pure (some item)

def pruneComponents (c : Components) : m Components := do
  let schemas ← table p.pruneSchema c.schemas
  let responses ← table p.pruneResponse c.responses
  let parameters ← table p.pruneParameter c.parameters
  let examples ← table p.sample c.examples
  let requestBodies ← table p.pruneBody c.requestBodies
  let headers ← table p.pruneHeader c.headers
  let securitySchemes ← table p.securityScheme c.securitySchemes
  let links ← table p.pruneLink c.links
  let callbacks ← table p.pruneCallback c.callbacks
  pure { c with
    schemas, responses, parameters, examples, requestBodies, headers, securitySchemes, links,
    callbacks }

def prune (d : OpenApi) : m OpenApi := do
  let components ← match d.components with
    | some c => do
      let c ← p.pruneComponents c
      pure (some c)
    | none => pure none
  let paths ← rows p.prunePathItem d.paths
  let servers ← items p.server d.servers
  let tags ← items p.tag d.tags
  let security ← items p.requirement d.security
  p.document { d with components, paths, servers, tags, security }

end Policy

end ApiDoc
