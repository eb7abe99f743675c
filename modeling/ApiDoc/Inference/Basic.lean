import ApiDoc.Inference.Head
import ApiDoc.Inference.Declared

/-!
# Schemas of types

Inference goes by levels: one level describes a type, given the level below
for the types that it mentions. Scalars and containers are described in place,
a declared type by a reference to its component, which is opened before its
members are visited.
-/

set_option autoImplicit false

namespace ApiDoc.Inference

structure Level where
  schemaOf : TypeExpr → Gen Schema
  fieldsOf : List FieldDecl → TypeExpr.Bindings → Gen Schema

def markField (infer : TypeExpr → Gen Schema) (f : FieldDecl) (property : Schema) : Gen Schema :=
  if f.deprecated && property.keywords.deprecated.isNone then
    merge infer property { deprecated := some true }
  else pure property

/-- The properties of a flattened struct become the object's own; another
flattened type is demanded through `allOf`. -/
def flatten (catalog : Catalog) (below : Level) (object : Schema) (t : TypeExpr) : Gen Schema :=
  match (catalog.get? t.name).bind fun d => d.fields?.map fun fields => (d, fields) with
  | some (d, fields) => do
    let inner ← below.fieldsOf fields (d.bindings t.args)
    let object := inner.keywords.required.foldl Schema.require object
    pure { object with properties := object.properties.putAll inner.properties.entries }
  | none => do
    let part ← below.schemaOf t
    pure { object with allOf := object.allOf ++ [part] }

def property (below : Level) (object : Schema) (f : FieldDecl) (t : TypeExpr) : Gen Schema := do
  let described ← member below.schemaOf t f.schema
  let marked ← markField below.schemaOf f described
  let object := if f.schema.any (·.required = some true) then object.require f.wireName else object
  pure { object with properties := object.properties.put f.wireName marked }

def field (catalog : Catalog) (below : Level) (bindings : TypeExpr.Bindings) (object : Schema)
    (f : FieldDecl) : Gen Schema :=
  if f.isAbsent then pure object
  else
    let t := f.type.substitute bindings
    if f.flattened then flatten catalog below object t else property below object f t

def object (catalog : Catalog) (below : Level) (fields : List FieldDecl)
    (bindings : TypeExpr.Bindings) : Gen Schema :=
  fields.foldlM (field catalog below bindings) (.ofType .object)

def words (ws : List String) : Schema :=
  { keywords := { type := some .string, enumeration := ws.map .text } }

def tagged (name : String) (payload : Schema) : Schema :=
  let s := (Schema.ofType .object).require name
  { s with properties := s.properties.put name payload }

def variant (below : Level) (bindings : TypeExpr.Bindings) (v : VariantDecl) : Gen Schema :=
  match v.payload with
  | .unit => pure (words [v.wireName])
  | .newtype inner => do
    let s ← below.schemaOf (inner.substitute bindings)
    pure (tagged v.wireName s)
  | .struct fields => do
    let s ← below.fieldsOf fields bindings
    pure (tagged v.wireName s)
  | .tuple _ => pure (tagged v.wireName (.ofType .array))

def variants (below : Level) (bindings : TypeExpr.Bindings) : List VariantDecl → Gen (List Schema)
  | [] => pure []
  | v :: vs => do
    let s ← variant below bindings v
    let rest ← variants below bindings vs
    pure (s :: rest)

def alternatives (below : Level) (bindings : TypeExpr.Bindings) (vs : List VariantDecl) :
    Gen Schema :=
  if vs.all (·.isUnit) then pure (words (vs.map (·.wireName)))
  else do
    let ss ← variants below bindings vs
    pure { oneOf := ss }

def shape (below : Level) (bindings : TypeExpr.Bindings) : TypeShape → Gen Schema
  | .struct fields => below.fieldsOf fields bindings
  | .enum vs => alternatives below bindings vs
  | .newtype inner => below.schemaOf (inner.substitute bindings)

def content (below : Level) (d : TypeDecl) (args : List TypeExpr) : Gen Schema := do
  let s ← shape below (d.bindings args) d.shape
  let s := if d.deprecated then { s with keywords := { s.keywords with deprecated := some true } }
    else s
  match d.schema with
  | some n => merge below.schemaOf s n
  | none => pure s

/-- A reference to the component of a declared type, which is made at the
first use. A component whose content fails stays blank. -/
def component (below : Level) (d : TypeDecl) (t : TypeExpr) : Gen Schema := do
  let arena ← get
  match arena.find? t.text with
  | some c => pure (Schema.refTo c.name)
  | none =>
    let (c, opened) := arena.allot t.text (d.componentName ++ TypeExpr.flatNames t.args)
    set opened
    let s ← content below d t.args
    modify fun arena' => arena'.fill arena.size s
    pure (Schema.refTo c.name)

def setNullable (s : Schema) : Schema :=
  { s with keywords := { s.keywords with nullable := some true } }

def setUnique (s : Schema) : Schema :=
  { s with keywords := { s.keywords with uniqueItems := some true } }

def describe (catalog : Catalog) (below : Level) (t : TypeExpr) : Gen Schema :=
  match scalar? t with
  | some s => pure s
  | none =>
    match Head.ofName t.name, t.args with
    | .option, [] | .pointer, [] => pure (.ofType .object)
    | .option, inner :: _ => do
      let s ← below.schemaOf inner
      pure (if (scalar? inner).isSome then setNullable s else s)
    | .pointer, inner :: _ => below.schemaOf inner
    | .anything, _ => pure {}
    | .map, _ :: value :: _ => do
      let s ← below.schemaOf value
      pure (if s.isBlank then .ofType .object
        else { Schema.ofType .object with additional := some (.schema s) })
    | .map, _ => pure (.ofType .object)
    | .sequence _ _, [] => pure (.ofType .array)
    | .sequence unique binary, inner :: _ =>
      if binary && inner.name = "u8" then pure (.ofFormat .string "binary")
      else do
        let s ← below.schemaOf inner
        pure (if unique then setUnique (.arrayOf s) else .arrayOf s)
    | .tuple, [] => pure {}
    | .tuple, _ => pure (.ofType .array)
    | .named, _ =>
      match catalog.get? t.name with
      | some d => component below d t
      | none => pure (.ofType .object)

def level (catalog : Catalog) : Nat → Level
  | 0 => ⟨fun _ => Gen.fail .tooDeep, fun _ _ => Gen.fail .tooDeep⟩
  | n + 1 =>
    ⟨fun t => describe catalog (level catalog n) t,
      fun fields bindings => object catalog (level catalog n) fields bindings⟩

def schemaOf (catalog : Catalog) (depth : Nat) : TypeExpr → Gen Schema :=
  (level catalog depth).schemaOf

end ApiDoc.Inference
