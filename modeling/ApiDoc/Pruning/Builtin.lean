import ApiDoc.Pruning.Walk
import ApiDoc.Form.Document
import ApiDoc.Failure
import ApiDoc.Text.Blank

/-!
# The two policies that have a name

`dropDeprecated` removes deprecated operations and properties, and of the
deprecated component schemas those that nothing left refers to.
`stripExtensions` removes extensions from operations, parameters and schemas.
-/

set_option autoImplicit false

namespace ApiDoc

namespace References

def schemaPointer : String := "#/components/schemas/"

def target? (pointer : String) : Option String :=
  if pointer.startsWith schemaPointer then
    some (String.ofList (pointer.toList.drop schemaPointer.length))
  else none

mutual
def targets : Json → List String
  | .array items => targetsOfItems items
  | .object rows => targetsOfRows rows
  | _ => []
def targetsOfItems : List Json → List String
  | [] => []
  | j :: js => targets j ++ targetsOfItems js
def targetsOfRows : List (String × Json) → List String
  | [] => []
  | (key, j) :: rows =>
    (if key = "$ref" then ((j.text?).bind target?).toList else targets j) ++ targetsOfRows rows
end

/-- Deprecated schemas reached from the pending names. Each round settles one
name or makes one more schema live; with `fuel` rounds over the deprecated
schemas nothing is left pending. -/
def reach (schemas : Ordered Schema) : Nat → List String → List String → List String
  | 0, live, _ => live
  | _ + 1, live, [] => live
  | fuel + 1, live, name :: pending =>
    match schemas.get? name with
    | some s =>
      if s.isDeprecated && !live.contains name then
        reach schemas fuel (name :: live) (targets s.toJson.distinct ++ pending)
      else reach schemas fuel live pending
    | none => reach schemas fuel live pending

/-- Rounds that settle every name: those pending now and those that the
deprecated schemas can add. -/
def rounds (schemas : Ordered Schema) (pending : List String) : Nat :=
  pending.length
    + ((schemas.values.filter (·.isDeprecated)).flatMap fun s =>
        targets s.toJson.distinct).length + 1

def withoutDeprecated (d : OpenApi) : OpenApi :=
  { d with
    components := d.components.map fun c =>
      { c with schemas := c.schemas.filter fun _ s => !s.isDeprecated } }

def live (d : OpenApi) : List String :=
  let schemas := d.componentsOrNew.schemas
  let pending := targets (withoutDeprecated d).toJson.distinct
  reach schemas (rounds schemas pending) [] pending

end References

namespace Policy

def dropDeprecatedProperties (s : Schema) : Schema :=
  let kept := s.properties.filter fun _ property => !property.isDeprecated
  if kept.size = s.properties.size then s
  else
    { s with
      properties := kept
      keywords := { s.keywords with required := s.keywords.required.filter kept.contains } }

def dropDeprecatedSchemas (d : OpenApi) : OpenApi :=
  let live := References.live d
  { d with
    components := d.components.map fun c =>
      { c with schemas := c.schemas.filter fun name s => !s.isDeprecated || live.contains name } }

def dropDeprecated : Policy Id :=
  { keepAll with
    schema := fun s => some (dropDeprecatedProperties s)
    operation := fun o => if o.deprecated = some true then none else some o
    document := dropDeprecatedSchemas }

def stripExtensions : Policy Id :=
  { keepAll with
    schema := fun s => some { s with keywords := { s.keywords with extensions := {} } }
    parameter := fun p => some { p with extensions := {} }
    operation := fun o => some { o with extensions := {} } }

def ofName (name : String) : Except Failure (Policy Id) :=
  match Text.trim name with
  | "drop-deprecated" => .ok dropDeprecated
  | "strip-extensions" => .ok stripExtensions
  | other => .error (.unknownFilter other)

end Policy

namespace OpenApi

def prune (d : OpenApi) (policy : Policy Id) : OpenApi := policy.prune d

end OpenApi

end ApiDoc
