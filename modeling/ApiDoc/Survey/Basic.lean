import ApiDoc.Survey.Declared
import ApiDoc.Survey.Handler
import ApiDoc.Failure
import ApiDoc.FileName

/-!
# Surveys of source files

A survey goes through the items of one file after another and keeps what they
declare. Functions outside implementations are handlers of one endpoint for each
file. What was found before a fault stays found.
-/

set_option autoImplicit false

namespace ApiDoc

structure Survey where
  inventory : Inventory := {}
  handlers : List Handler := []
  fault : Option Attribute.Fault := none
  deriving Inhabited

namespace Survey

open Attribute (Fault)

abbrev Surveying := StateM Survey

def noting {α : Type} (work : Noting α) : Surveying α := fun s =>
  let (a, fault) := work.run s.fault
  (a, { s with fault })

def amendInventory (change : Inventory → Inventory) : Surveying Unit :=
  modify fun s => { s with inventory := change s.inventory }

def documentRemark (i : Inventory) (a : Attribute) : Except Fault Inventory := do
  match a.name with
  | "openapi_definition" =>
    return { i with definition := i.definition ++ (← Attribute.definition.ofAttribute a) }
  | "security_scheme" =>
    let scheme ← Attribute.securityScheme.ofAttribute a
    return { i with securitySchemes := i.securitySchemes ++ [scheme] }
  | "application_path" =>
    let path ← Attribute.pathValue a
    return { i with basePath := i.basePath.orElse fun _ => some path }
  | _ => return i

def documentRemarks (attributes : List Attribute) : Surveying Unit :=
  attributes.forM fun a => do
    let i := (← get).inventory
    let i ← noting (amended i (documentRemark i a))
    amendInventory fun _ => i

def endpointRemark (e : Endpoint) (a : Attribute) : Except Fault Endpoint := do
  match a.name with
  | "path" => return { e with path := some (← Attribute.pathValue a) }
  | "tag" => return { e with tags := e.tags ++ [← Attribute.tag.ofAttribute a] }
  | "server" => return { e with servers := e.servers ++ [← Attribute.server.ofAttribute a] }
  | "security_requirement" =>
    return { e with security := e.security ++ [[← Attribute.schemeUse.ofAttribute a]] }
  | "security_requirements_set" =>
    return { e with security := e.security ++ [← Attribute.schemeSet.ofAttribute a] }
  | "produces" => return { e with produces := e.produces ++ (← Attribute.mediaTypes a) }
  | "consumes" => return { e with consumes := e.consumes ++ (← Attribute.mediaTypes a) }
  | "api_response" => return { e with responses := e.responses ++ [← Attribute.responseOf a] }
  | "extension" =>
    return { e with extensions := e.extensions ++ [← Attribute.extensionNote.ofAttribute a] }
  | _ => return e

def endpoint? (attributes : List Attribute) (self : TypeExpr) (methods : List Source.Function) :
    Noting (Option Endpoint) := do
  let blank : Endpoint := { name := self.name }
  let e ← attributes.foldlM (fun e a => amended e (endpointRemark e a)) blank
  let handlers ← methods.mapM handler?
  let e := { e with handlers := handlers.filterMap id }
  return if e.path.isSome || !e.handlers.isEmpty then some e else none

def declare (d : Except Fault TypeDecl) : Surveying Unit := do
  match ← noting (settle d) with
  | some d => amendInventory fun i => { i with types := i.types.add d }
  | none => return ()

def addEndpoint (e : Endpoint) : Surveying Unit :=
  amendInventory fun i => { i with endpoints := i.endpoints ++ [e] }

mutual
def visit : Source.Item → Surveying Unit
  | .struct attributes name generics fields => do
    documentRemarks attributes
    declare (structDecl attributes name generics fields)
  | .enum attributes name generics variants => do
    documentRemarks attributes
    declare (enumDecl attributes name generics variants)
  | .function f nested => do
    documentRemarks f.attributes
    match ← noting (handler? f) with
    | some h => modify fun s => { s with handlers := s.handlers ++ [h] }
    | none => pure ()
    visitAll nested
  | .implementation attributes self methods nested => do
    documentRemarks attributes
    match ← noting (endpoint? attributes self methods) with
    | some e => addEndpoint e
    | none => pure ()
    visitAll nested
  | .other attributes nested => do
    documentRemarks attributes
    visitAll nested
def visitAll : List Source.Item → Surveying Unit
  | [] => return ()
  | item :: items => do
    visit item
    visitAll items
end

def endpointName (path : String) : String :=
  match FileName.ofPath? path.toList with
  | some name => String.ofList (FileName.stem name)
  | none => "handlers"

/-- The items of a file. After a fault its functions are forgotten. -/
def addItems (path : String) (items : List Source.Item) (s : Survey) :
    Except Failure Unit × Survey :=
  let (_, s) := (visitAll items).run { s with handlers := [], fault := none }
  let handlers := s.handlers
  let cleared := { s with handlers := [], fault := none }
  match s.fault with
  | some fault => (.error (.faultyNote path fault), cleared)
  | none =>
    if handlers.isEmpty then (.ok (), cleared)
    else
      let e : Endpoint := { name := endpointName path, handlers }
      (.ok (), ((addEndpoint e).run cleared).2)

def parse (path text : String) : Except Failure Source.File :=
  match Source.File.ofText? text with
  | some file => .ok file
  | none => .error (.syntaxError (some path))

def addFile (path text : String) (s : Survey) : Except Failure Unit × Survey :=
  match parse path text with
  | .ok file => s.addItems path file.items
  | .error f => (.error f, s)

def ofParsed (files : List (String × Source.File)) : Except Failure Inventory :=
  (files.foldlM (fun s row => step (addItems row.1 row.2.items s)) {}).map inventory
where
  step : Except Failure Unit × Survey → Except Failure Survey
    | (.ok (), s) => .ok s
    | (.error f, _) => .error f

end Survey

namespace Inventory

def ofFiles (files : List (String × String)) : Except Failure Inventory :=
  (files.foldlM (fun s row => Survey.ofParsed.step (s.addFile row.1 row.2)) ({} : Survey)).map
    Survey.inventory

end Inventory

end ApiDoc
