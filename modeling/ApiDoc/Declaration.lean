import ApiDoc.Note

/-!
# Declared types

Structs, enums and newtypes with what their annotations say. In a catalog the
first declaration of a name is kept.
-/

set_option autoImplicit false

namespace ApiDoc

structure FieldDecl where
  name : String
  type : TypeExpr
  rename : Option String := none
  skipped : Bool := false
  flattened : Bool := false
  schema : Option SchemaNote := none
  deprecated : Bool := false
  deriving Inhabited

namespace FieldDecl

def isHidden (f : FieldDecl) : Bool := f.schema.any (·.hidden)

def isAbsent (f : FieldDecl) : Bool := f.skipped || f.isHidden

def wireName (f : FieldDecl) : String :=
  ((f.schema.bind (·.name)).orElse fun _ => f.rename).getD f.name

end FieldDecl

inductive VariantPayload where
  | unit
  | newtype (inner : TypeExpr)
  | struct (fields : List FieldDecl)
  | tuple (members : List TypeExpr)
  deriving Inhabited

structure VariantDecl where
  name : String
  rename : Option String := none
  payload : VariantPayload := .unit
  deriving Inhabited

namespace VariantDecl

def wireName (v : VariantDecl) : String := v.rename.getD v.name

def isUnit (v : VariantDecl) : Bool :=
  match v.payload with
  | .unit => true
  | _ => false

end VariantDecl

/-- A tuple of several members counts as a struct without fields. -/
inductive TypeShape where
  | struct (fields : List FieldDecl)
  | enum (variants : List VariantDecl)
  | newtype (inner : TypeExpr)
  deriving Inhabited

structure TypeDecl where
  name : String
  generics : List String := []
  shape : TypeShape
  schema : Option SchemaNote := none
  deprecated : Bool := false
  deriving Inhabited

namespace TypeDecl

def bindings (d : TypeDecl) (args : List TypeExpr) : TypeExpr.Bindings :=
  Ordered.ofRows (d.generics.zip args)

def componentName (d : TypeDecl) : String := (d.schema.bind (·.name)).getD d.name

def fields? (d : TypeDecl) : Option (List FieldDecl) :=
  match d.shape with
  | .struct fields => some fields
  | _ => none

end TypeDecl

abbrev Catalog := Ordered TypeDecl

namespace Catalog

def add (c : Catalog) (d : TypeDecl) : Catalog := c.putNew d.name d

def ofList (ds : List TypeDecl) : Catalog := ds.foldl add {}

end Catalog

end ApiDoc
