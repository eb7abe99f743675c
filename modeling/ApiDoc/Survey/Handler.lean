import ApiDoc.Attribute.Route
import ApiDoc.Source.Item

/-!
# Handlers and their arguments

A function is a handler when one of its attributes is named after a method. A
wrong attribute has no effect, but the first thing that is wrong is kept.
-/

set_option autoImplicit false

namespace ApiDoc.Survey

open Attribute (Fault)

abbrev Noting := StateM (Option Fault)

variable {α : Type}

def settle : Except Fault α → Noting (Option α)
  | .ok a => return some a
  | .error fault => do
    modify fun first => first.orElse fun _ => some fault
    return none

def amended (a : α) (change : Except Fault α) : Noting α := do return (← settle change).getD a

/-! ## Attributes on handlers -/

def remark (h : Handler) (a : Attribute) : Except Fault Handler := do
  match a.name with
  | "path" => return { h with path := some (← Attribute.pathValue a) }
  | "operation" => return { h with operation := some (← Attribute.operation.ofAttribute a) }
  | "parameter" =>
    return { h with parameters := h.parameters ++ [← Attribute.parameter.ofAttribute a] }
  | "request_body" => return { h with requestBody := some (← Attribute.body.ofAttribute a) }
  | "api_response" => return { h with responses := h.responses ++ [← Attribute.responseOf a] }
  | "tag" => return { h with tags := h.tags ++ [← Attribute.tag.ofAttribute a] }
  | "server" => return { h with servers := h.servers ++ [← Attribute.server.ofAttribute a] }
  | "security_requirement" =>
    return { h with security := h.security ++ [[← Attribute.schemeUse.ofAttribute a]] }
  | "security_requirements_set" =>
    return { h with security := h.security ++ [← Attribute.schemeSet.ofAttribute a] }
  | "produces" => return { h with produces := h.produces ++ (← Attribute.mediaTypes a) }
  | "consumes" => return { h with consumes := h.consumes ++ (← Attribute.mediaTypes a) }
  | "callback" =>
    return { h with callbacks := h.callbacks ++ [← Attribute.callback.ofAttribute a] }
  | "external_docs" =>
    return { h with externalDocs := some (← Attribute.externalDocs.ofAttribute a) }
  | "extension" =>
    return { h with extensions := h.extensions ++ [← Attribute.extensionNote.ofAttribute a] }
  | _ => return h

def withAttribute (h : Handler) (a : Attribute) : Noting Handler := do
  match ← settle (Attribute.verb a) with
  | some (some (verb, path)) =>
    return { h with verb := some verb, path := path.orElse fun _ => h.path }
  | _ => amended h (remark h a)

/-! ## Arguments -/

def extractorLocation? (name : String) : Option ParameterLocation :=
  match name with
  | "Path" => some .path
  | "Query" => some .query
  | "Header" | "TypedHeader" => some .header
  | _ => none

def bodyExtractors : List String := ["Json", "Form"]

def injectedTypes : List String := [
  "HttpRequest", "Request", "State", "Data", "Extension", "Payload", "HeaderMap", "Method",
  "Uri", "ConnectInfo"]

mutual
def patternName? : Source.Pattern → Option String
  | .name n => some n
  | .applied ps => soleName? ps
  | .reference p => patternName? p
  | _ => none
def soleName? : List Source.Pattern → Option String
  | [p] => patternName? p
  | _ => none
end

def bound (name : String) (type : TypeExpr) (location : ParameterLocation) : Argument :=
  { name, type, binding := some ⟨location, name⟩ }

def extracted (name : String) (declared : TypeExpr) : Argument :=
  let inner := declared.firstArg?.getD declared
  match extractorLocation? declared.name with
  | some location => bound name inner location
  | none =>
    if bodyExtractors.contains declared.name then { name, type := inner }
    else { name, type := declared, injected := injectedTypes.contains declared.name }

def tupleArguments? (i : Source.Input) : Option (List Argument) := do
  let location ← extractorLocation? i.type.name
  let tuple ← i.type.firstArg?
  match i.pattern with
  | .applied [.tuple members] =>
    guard (tuple.name = TypeExpr.tupleName)
    guard (members.length = tuple.args.length)
    (members.zip tuple.args).mapM fun (p, t) => do pure (bound (← patternName? p) t location)
  | _ => none

def withArgumentAttribute (argument : Argument) (a : Attribute) : Noting (Option Argument) := do
  match a.name with
  | "context" => return some { argument with injected := true }
  | "suspended" => return some { argument with suspended := true }
  | "parameter" =>
    return (← settle (Attribute.parameter.ofAttribute a)).map fun n =>
      { argument with parameter := some n }
  | "request_body" =>
    return (← settle (Attribute.body.ofAttribute a)).map fun n =>
      { argument with requestBody := some n }
  | _ =>
    match ← settle (Attribute.binding a argument.name) with
    | some (some b) => return some { argument with binding := some b }
    | _ => return some argument

def withArgumentAttributes (argument : Argument) : List Attribute → Noting (Option Argument)
  | [] => return some argument
  | a :: rest => do
    match ← withArgumentAttribute argument a with
    | some argument => withArgumentAttributes argument rest
    | none => return none

def arguments (index : Nat) (i : Source.Input) : Noting (List Argument) := do
  match tupleArguments? i with
  | some several => return several
  | none =>
    let name := (patternName? i.pattern).getD ("arg" ++ String.ofList (Nat.toDigits 10 index))
    return (← withArgumentAttributes (extracted name i.type) i.attributes).toList

def argumentsFrom : Nat → List (Option Source.Input) → Noting (List Argument)
  | _, [] => return []
  | index, none :: inputs => argumentsFrom (index + 1) inputs
  | index, some i :: inputs => do
    let here ← arguments index i
    return here ++ (← argumentsFrom (index + 1) inputs)

/-! ## Handlers -/

def handler? (f : Source.Function) : Noting (Option Handler) := do
  let h : Handler := { name := f.name, deprecated := Attribute.isDeprecated f.attributes }
  let h ← f.attributes.foldlM withAttribute h
  if h.verb.isNone then return none
  else return some { h with
    arguments := ← argumentsFrom 0 f.inputs
    returnType := f.output }

end ApiDoc.Survey
