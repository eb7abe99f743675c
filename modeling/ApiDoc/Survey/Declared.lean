import ApiDoc.Attribute.Schema
import ApiDoc.Attribute.Wire
import ApiDoc.Declaration
import ApiDoc.RenameRule

/-!
# Declared types of a source

A name in the data is given by the field or the variant itself, else by the rule
of what contains it. It is kept only where it differs from the declared name.
-/

set_option autoImplicit false

namespace ApiDoc.Survey

open Attribute (Fault Wire)

def givenName (own rule : Option String) (rename : RenameRule → String → String)
    (name : String) : Option String :=
  ((own.orElse fun _ => rule.map fun r => RenameRule.applyTo r rename name)).filter (· ≠ name)

def field (rule : Option String) (f : Source.NamedField) : Except Fault FieldDecl := do
  let wire ← Wire.ofAttributes f.attributes
  return {
    name := f.name
    type := f.type
    rename := givenName wire.rename rule RenameRule.renameField f.name
    skipped := wire.skipped
    flattened := wire.flattened
    schema := ← Attribute.schemaOf f.attributes
    deprecated := Attribute.isDeprecated f.attributes }

def fields (rule : Option String) (fs : List Source.NamedField) :
    Except Fault (List FieldDecl) :=
  fs.mapM (field rule)

/-- A tuple of one member is a new name for it; other tuples have no fields. -/
def structShape (rule : Option String) : Source.Fields → Except Fault TypeShape
  | .named fs => .struct <$> fields rule fs
  | .tuple [inner] => .ok (.newtype inner)
  | .tuple _ | .unit => .ok (.struct [])

def payload (rule : Option String) : Source.Fields → Except Fault VariantPayload
  | .unit => .ok .unit
  | .tuple [inner] => .ok (.newtype inner)
  | .tuple members => .ok (.tuple members)
  | .named fs => .struct <$> fields rule fs

def variant? (rule : Option String) (v : Source.Variant) :
    Except Fault (Option VariantDecl) := do
  let wire ← Wire.ofAttributes v.attributes
  if wire.skipped then return none
  else return some {
    name := v.name
    payload := ← payload wire.renameAll v.fields
    rename := givenName wire.rename rule RenameRule.renameVariant v.name }

def typeDecl (attributes : List Attribute) (name : String) (generics : List String)
    (shape : Option String → Except Fault TypeShape) : Except Fault TypeDecl := do
  let wire ← Wire.ofAttributes attributes
  return {
    name, generics
    shape := ← shape wire.renameAll
    schema := ← Attribute.schemaOf attributes
    deprecated := Attribute.isDeprecated attributes }

def structDecl (attributes : List Attribute) (name : String) (generics : List String)
    (fs : Source.Fields) : Except Fault TypeDecl :=
  typeDecl attributes name generics fun rule => structShape rule fs

def enumDecl (attributes : List Attribute) (name : String) (generics : List String)
    (variants : List Source.Variant) : Except Fault TypeDecl :=
  typeDecl attributes name generics fun rule => do
    return .enum ((← variants.mapM (variant? rule)).filterMap id)

end ApiDoc.Survey
