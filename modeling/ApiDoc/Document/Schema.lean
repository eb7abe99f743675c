import ApiDoc.Json.Basic

/-!
# Schemas

A schema is a reference, its own keywords, and its subschemas. The subschemas
stand apart from the other keywords because they are what a walk descends into.
-/

set_option autoImplicit false

namespace ApiDoc

inductive SchemaType where
  | boolean
  | integer
  | number
  | string
  | array
  | object
  deriving DecidableEq, Repr

namespace SchemaType

def all : List SchemaType := [.boolean, .integer, .number, .string, .array, .object]

def name : SchemaType → String
  | .boolean => "boolean"
  | .integer => "integer"
  | .number => "number"
  | .string => "string"
  | .array => "array"
  | .object => "object"

def ofName? (s : String) : Option SchemaType := all.find? fun t => t.name = s

end SchemaType

abbrev Extensions := Ordered Json

structure ExternalDocs where
  url : String := ""
  description : Option String := none
  extensions : Extensions := {}

structure Discriminator where
  propertyName : String := ""
  mapping : Ordered String := {}

inductive Additional (α : Type) where
  | allowed (value : Bool)
  | schema (value : α)

structure Keywords where
  title : Option String := none
  type : Option SchemaType := none
  format : Option String := none
  description : Option String := none
  multipleOf : Option JsonNumber := none
  maximum : Option JsonNumber := none
  exclusiveMaximum : Option Bool := none
  minimum : Option JsonNumber := none
  exclusiveMinimum : Option Bool := none
  maxLength : Option Nat := none
  minLength : Option Nat := none
  pattern : Option String := none
  maxItems : Option Nat := none
  minItems : Option Nat := none
  uniqueItems : Option Bool := none
  maxProperties : Option Nat := none
  minProperties : Option Nat := none
  required : List String := []
  enumeration : List Json := []
  discriminator : Option Discriminator := none
  nullable : Option Bool := none
  readOnly : Option Bool := none
  writeOnly : Option Bool := none
  deprecated : Option Bool := none
  default : Option Json := none
  sample : Option Json := none
  externalDocs : Option ExternalDocs := none
  extensions : Extensions := {}

structure Schema where
  reference : Option String := none
  keywords : Keywords := {}
  properties : Ordered Schema := {}
  items : Option Schema := none
  negated : Option Schema := none
  allOf : List Schema := []
  anyOf : List Schema := []
  oneOf : List Schema := []
  additional : Option (Additional Schema) := none
  deriving Inhabited

namespace Keywords

def isBlank (k : Keywords) : Bool :=
  k.title.isNone && k.type.isNone && k.format.isNone && k.description.isNone
    && k.multipleOf.isNone && k.maximum.isNone && k.exclusiveMaximum.isNone
    && k.minimum.isNone && k.exclusiveMinimum.isNone && k.maxLength.isNone
    && k.minLength.isNone && k.pattern.isNone && k.maxItems.isNone && k.minItems.isNone
    && k.uniqueItems.isNone && k.maxProperties.isNone && k.minProperties.isNone
    && k.required.isEmpty && k.enumeration.isEmpty && k.discriminator.isNone
    && k.nullable.isNone && k.readOnly.isNone && k.writeOnly.isNone && k.deprecated.isNone
    && k.default.isNone && k.sample.isNone && k.externalDocs.isNone && k.extensions.isEmpty

end Keywords

namespace Schema

def isLeaf (s : Schema) : Bool :=
  s.properties.isEmpty && s.items.isNone && s.negated.isNone && s.allOf.isEmpty
    && s.anyOf.isEmpty && s.oneOf.isEmpty && s.additional.isNone

def isBlank (s : Schema) : Bool := s.reference.isNone && s.keywords.isBlank && s.isLeaf

def isReference (s : Schema) : Bool := s.reference.isSome && s.keywords.isBlank && s.isLeaf

def ofType (t : SchemaType) : Schema := { keywords := { type := some t } }

def ofFormat (t : SchemaType) (format : String) : Schema :=
  { keywords := { type := some t, format := some format } }

def arrayOf (items : Schema) : Schema :=
  { keywords := { type := some .array }, items := some items }

def isDeprecated (s : Schema) : Bool := s.keywords.deprecated == some true

def require (s : Schema) (name : String) : Schema :=
  if s.keywords.required.contains name then s
  else { s with keywords := { s.keywords with required := s.keywords.required ++ [name] } }

def additionalSchema? : Option (Additional Schema) → Option Schema
  | some (.schema s) => some s
  | _ => none

def children (s : Schema) : List Schema :=
  s.properties.values ++ s.items.toList ++ s.negated.toList ++ s.allOf ++ s.anyOf ++ s.oneOf
    ++ (additionalSchema? s.additional).toList

mutual
def height : Schema → Nat
  | ⟨_, _, properties, items, negated, allOf, anyOf, oneOf, additional⟩ =>
    let item := match items with
      | some s => s.height
      | none => 0
    let negation := match negated with
      | some s => s.height
      | none => 0
    let rest := match additional with
      | some (.schema s) => s.height
      | _ => 0
    max (heightRows properties.rows) (max item (max negation (max (heightList allOf)
      (max (heightList anyOf) (max (heightList oneOf) rest))))) + 1
def heightRows {keys : List String} : Ordered.Rows Schema keys → Nat
  | .nil => 0
  | .cons s rows => max s.height (heightRows rows)
def heightList : List Schema → Nat
  | [] => 0
  | s :: ss => max s.height (heightList ss)
end

end Schema

end ApiDoc
