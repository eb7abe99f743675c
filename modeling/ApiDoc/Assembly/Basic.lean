import ApiDoc.Assembly.Parameter
import ApiDoc.Assembly.Payload
import ApiDoc.Settings.Basic

/-!
# Assembling a document

A draft is the document so far, the component schemas opened for it, and the
operation ids given out. Every step may fail, and a step that fails keeps what
it has already done to the draft; an operation enters the document last, when
nothing of it can fail any more.
-/

set_option autoImplicit false

namespace ApiDoc

structure Assembly where
  settings : Settings := {}
  strategy : IdStrategy := IdStrategy.byHandler
  catalog : Catalog := {}
  depth : Nat

structure Draft where
  document : OpenApi := {}
  arena : Inference.Arena := {}
  ids : OperationIds := {}

namespace Assembly

open Inference (Gen)

abbrev Step (α : Type) := ExceptT Failure (StateM Draft) α

namespace Step

def check {α : Type} (e : Except Failure α) : Step α := ExceptT.mk (pure e)

def gen {α : Type} (g : Gen α) : Step α := ExceptT.mk fun d =>
  let (result, arena) := g.run d.arena
  (result, { d with arena := arena })

def edit (f : OpenApi → OpenApi) : Step Unit :=
  modify fun d => { d with document := f d.document }

def claim (candidate : String) : Step String := do
  let d ← get
  let (id, ids) := d.ids.claim candidate
  set { d with ids := ids }
  pure id

end Step

def infer (a : Assembly) : TypeExpr → Gen Schema := Inference.schemaOf a.catalog a.depth

def usualDepth : Nat := 8192

def strategyOf (s : Settings) : Except Failure IdStrategy :=
  match s.get? Settings.strategyKey with
  | some name => IdStrategy.ofName name
  | none => .ok IdStrategy.byHandler

def begin (base : OpenApi) : Draft where
  document := base
  ids := base.operations.foldl
    (fun ids row => match row.2.2.operationId with
      | some id => ids.reserve id
      | none => ids) {}

def serverAt (url : String) : Server := { url }

def addServer (d : OpenApi) (s : Server) : OpenApi :=
  if d.servers.any (·.url = s.url) then d else { d with servers := d.servers ++ [s] }

def defineInfo (n : Option InfoNote) : Step Unit := do
  let d ← get
  match n, d.document.info with
  | some n, none => do
    let info ← Step.check n.node
    Step.edit fun doc => { doc with info := some info }
  | _, _ => pure ()

def defineServers : List ServerNote → Step Unit
  | [] => pure ()
  | n :: ns => do
    let s ← Step.check n.node
    Step.edit fun doc => addServer doc s
    defineServers ns

def defineTag : Option Tag → Step Unit
  | some tag => Step.edit fun doc => doc.addTag tag
  | none => pure ()

def defineTags : List TagNote → Step Unit
  | [] => pure ()
  | n :: ns => do
    let tag ← Step.check n.node?
    defineTag tag
    defineTags ns

def defineExtensions (notes : List ExtensionNote) : Step Unit := do
  let extensions ← Step.check (Literal.extensions notes)
  Step.edit fun doc =>
    { doc with
      extensions := extensions.entries.foldl (fun m row => m.putNew row.1 row.2) doc.extensions }

def applyDefinition (n : DefinitionNote) : Step Unit := do
  defineInfo n.info
  defineServers n.servers
  defineTags n.tags
  Step.edit fun doc =>
    { doc with
      security := doc.security ++ n.security.map (·.node)
      externalDocs := doc.externalDocs.orElse fun _ => n.externalDocs.map (·.node) }
  defineExtensions n.extensions

def addSecurityScheme (n : SecuritySchemeNote) : Step Unit := do
  let scheme ← Step.check n.node
  Step.edit fun doc =>
    let components := doc.componentsOrNew
    { doc with
      components := some { components with
        securitySchemes := components.securitySchemes.putNew n.name scheme } }

def mention (own : List TagNote) (name : String) : Step Unit := do
  let d ← get
  if (d.document.tag? name).isNone then defineTags (own.find? (·.name = some name)).toList
  else pure ()

def resolveTag (own : List TagNote) (n : TagNote) : Step String := do
  match ← Step.check n.node? with
  | some tag => do
    defineTag (some tag)
    pure tag.name
  | none => do
    mention own (n.reference.getD "")
    pure (n.reference.getD "")

def resolveTags (own : List TagNote) (names : List String) : List TagNote → Step (List String)
  | [] => pure names
  | n :: ns => do
    let name ← resolveTag own n
    resolveTags own (if names.contains name then names else names ++ [name]) ns

def operationTags (a : Assembly) (e : Endpoint) (h : Handler) (id : String) :
    Step (List String) :=
  match a.settings.list? (Settings.operationTagsKey id) with
  | some tags => pure tags
  | none => resolveTags e.tags [] (orInherited h.tags e.tags)

def operationSecurity (a : Assembly) (e : Endpoint) (h : Handler) (id : String) :
    Option (List SecurityRequirement) :=
  match a.settings.list? (Settings.operationSecurityKey id) with
  | some schemes => some (schemes.map fun name => Ordered.ofRows [(name, [])])
  | none =>
    match orInherited h.security e.security with
    | [] => none
    | sets => some (sets.map (·.node))

def operationServers (a : Assembly) (e : Endpoint) (h : Handler) (id : String) :
    Except Failure (List Server) :=
  match a.settings.list? (Settings.operationServersKey id) with
  | some urls => .ok (urls.map serverAt)
  | none => (orInherited h.servers e.servers).mapM (·.node)

def callbacks (a : Assembly) (h : Handler) : Gen (Ordered Callback) :=
  h.callbacks.foldlM (fun m n => do
    let c ← n.node a.infer
    pure (m.put n.name c)) {}

def pathOf (basePath : Option String) (e : Endpoint) (h : Handler) : String :=
  Naming.joinPaths [basePath.getD "", e.path.getD "", h.path.getD ""]

def place (a : Assembly) (path : String) (verb : HttpMethod) (o : Operation) (d : OpenApi) :
    OpenApi :=
  let item := (d.paths.get? path).getD {}
  let servers :=
    if item.servers.isEmpty then
      match a.settings.list? (Settings.pathServersKey path) with
      | some urls => urls.map serverAt
      | none => item.servers
    else item.servers
  { d with
    paths := d.paths.put path { item with servers, slots := item.slots.set verb (some o) } }

def operation (a : Assembly) (e : Endpoint) (h : Handler) (n : OperationNote) (id : String) :
    Step Operation := do
  let extensions ← Step.check (Literal.extensions h.extensions)
  let tags ← a.operationTags e h id
  let servers ← Step.check (a.operationServers e h id)
  let parameters ← Step.gen (parameters a.catalog a.infer h)
  let requestBody ← Step.gen (requestBody a.infer e h)
  let responses ← Step.gen (responses a.catalog a.infer e h)
  let callbacks ← Step.gen (a.callbacks h)
  pure {
    tags
    summary := n.summary
    description := n.description
    externalDocs := h.externalDocs.map (·.node)
    operationId := some id
    parameters
    requestBody
    responses := some responses
    callbacks
    deprecated := if n.deprecated.getD false || h.deprecated then some true else none
    security := a.operationSecurity e h id
    servers
    extensions }

def addHandler (a : Assembly) (basePath : Option String) (e : Endpoint) (h : Handler) :
    Step Unit := do
  let n := h.operation.getD {}
  match h.verb with
  | none => pure ()
  | some verb =>
    if n.hidden then pure ()
    else do
      let path := pathOf basePath e h
      let id ← Step.claim (n.operationId.getD (a.strategy e.name h.name verb path))
      let o ← a.operation e h n id
      Step.edit (a.place path verb o)

def addHandlers (a : Assembly) (basePath : Option String) (e : Endpoint) :
    List Handler → Step Unit
  | [] => pure ()
  | h :: hs => do
    a.addHandler basePath e h
    a.addHandlers basePath e hs

def addEndpoint (a : Assembly) (basePath : Option String) (e : Endpoint) : Step Unit := do
  defineTags e.tags
  a.addHandlers basePath e e.handlers

def withResponses (o : Operation) : Operation :=
  { o with responses := o.responses.orElse fun _ => some {} }

def mapSlots (f : Operation → Operation) (s : ByMethod Operation) : ByMethod Operation where
  get := s.get.map f
  put := s.put.map f
  post := s.post.map f
  delete := s.delete.map f
  options := s.options.map f
  head := s.head.map f
  patch := s.patch.map f
  trace := s.trace.map f

def defaultTitle : String := "Generated API"
def defaultVersion : String := "1.0.0"

def finishInfo (s : Settings) (info : Info) : Info :=
  let title := (s.get? Settings.titleKey).getD info.title
  let version := (s.get? Settings.versionKey).getD info.version
  { info with
    title := if title.isEmpty then defaultTitle else title
    version := if version.isEmpty then defaultVersion else version }

def finish (a : Assembly) (d : Draft) : OpenApi :=
  let doc := d.document
  { doc with
    paths := doc.paths.mapValues fun (item : PathItem) =>
      { item with slots := mapSlots withResponses item.slots }
    components := if d.arena.size = 0 then doc.components
      else some (d.arena.register doc.componentsOrNew)
    servers := match a.settings.list? Settings.serversKey with
      | some urls => urls.map serverAt
      | none => doc.servers
    info := some (finishInfo a.settings (doc.info.getD {})) }

def addEndpoints (a : Assembly) (basePath : Option String) : List Endpoint → Step Unit
  | [] => pure ()
  | e :: es => do
    a.addEndpoint basePath e
    a.addEndpoints basePath es

def addSecuritySchemes : List SecuritySchemeNote → Step Unit
  | [] => pure ()
  | n :: ns => do
    addSecurityScheme n
    addSecuritySchemes ns

def addInventory (a : Assembly) (i : Inventory) : Step Unit := do
  applyDefinition i.definition
  addSecuritySchemes i.securitySchemes
  a.addEndpoints i.basePath i.endpoints

def build (settings : Settings) (strategy : IdStrategy) (base : OpenApi) (i : Inventory)
    (depth : Nat := usualDepth) : Except Failure OpenApi :=
  let a : Assembly := { settings, strategy, catalog := i.types, depth }
  match (a.addInventory i).run (begin base) with
  | (.ok _, d) => .ok (a.finish d)
  | (.error f, _) => .error f

end Assembly

end ApiDoc
