import ApiDoc.Proofs.Inference.Link

/-!
# Instances of generic declarations

An instance of a generic declaration has arguments in the place of its parameters,
put there all at once wherever a member is typed. Members that are described under
bindings are described alike as members of the instance, where nothing is bound.
-/

set_option autoImplicit false

namespace ApiDoc

namespace TypeExpr

mutual
def replace (σ : String → TypeExpr) : TypeExpr → TypeExpr
  | ⟨name, []⟩ => σ name
  | ⟨name, arg :: args⟩ => ⟨name, replace σ arg :: replaceList σ args⟩
def replaceList (σ : String → TypeExpr) : List TypeExpr → List TypeExpr
  | [] => []
  | t :: ts => replace σ t :: replaceList σ ts
end

mutual
theorem substitute_eq_replace (bindings : Bindings) : ∀ t : TypeExpr,
    t.substitute bindings = t.replace fun name => (bindings.get? name).getD ⟨name, []⟩
  | ⟨_, []⟩ => by rw [substitute, replace]
  | ⟨_, arg :: args⟩ => by
    rw [substitute, replace, substitute_eq_replace bindings arg,
      substituteList_eq_replaceList bindings args]
theorem substituteList_eq_replaceList (bindings : Bindings) : ∀ ts : List TypeExpr,
    substituteList bindings ts = replaceList (fun name => (bindings.get? name).getD ⟨name, []⟩) ts
  | [] => by rw [substituteList, replaceList]
  | t :: ts => by
    rw [substituteList, replaceList, substitute_eq_replace bindings t,
      substituteList_eq_replaceList bindings ts]
end

mutual
theorem substitute_empty : ∀ t : TypeExpr, t.substitute {} = t
  | ⟨_, []⟩ => by rw [substitute]; rfl
  | ⟨_, arg :: args⟩ => by rw [substitute, substitute_empty arg, substituteList_empty args]
theorem substituteList_empty : ∀ ts : List TypeExpr, substituteList {} ts = ts
  | [] => by rw [substituteList]
  | t :: ts => by rw [substituteList, substitute_empty t, substituteList_empty ts]
end

end TypeExpr

/-! ### Members of other types -/

def FieldDecl.retyped (g : TypeExpr → TypeExpr) (f : FieldDecl) : FieldDecl :=
  { f with type := g f.type }

def VariantPayload.retyped (g : TypeExpr → TypeExpr) : VariantPayload → VariantPayload
  | .unit => .unit
  | .newtype inner => .newtype (g inner)
  | .struct fields => .struct (fields.map (·.retyped g))
  | .tuple members => .tuple (members.map g)

def VariantDecl.retyped (g : TypeExpr → TypeExpr) (v : VariantDecl) : VariantDecl :=
  { v with payload := v.payload.retyped g }

def TypeShape.retyped (g : TypeExpr → TypeExpr) : TypeShape → TypeShape
  | .struct fields => .struct (fields.map (·.retyped g))
  | .enum variants => .enum (variants.map (·.retyped g))
  | .newtype inner => .newtype (g inner)

namespace TypeDecl

/-- A parameter stands for its argument, any other name for itself. Of a parameter that
is repeated the last argument counts. -/
def argumentFor (d : TypeDecl) (args : List TypeExpr) (name : String) : TypeExpr :=
  ((d.generics.zip args).reverse.lookup name).getD ⟨name, []⟩

def instantiated (d : TypeDecl) (args : List TypeExpr) : TypeDecl :=
  { d with generics := [], shape := d.shape.retyped (TypeExpr.replace (d.argumentFor args)) }

theorem replace_argumentFor (d : TypeDecl) (args : List TypeExpr) :
    TypeExpr.replace (d.argumentFor args) = TypeExpr.substitute (d.bindings args) := by
  funext t
  rw [TypeExpr.substitute_eq_replace]
  unfold bindings
  simp only [Ordered.get?_ofRows]
  rfl

theorem bindings_instantiated (d : TypeDecl) (args others : List TypeExpr) :
    (d.instantiated args).bindings others = {} := rfl

theorem fields?_instantiated (d : TypeDecl) (args : List TypeExpr) :
    (d.instantiated args).fields? =
      d.fields?.map (List.map (·.retyped (TypeExpr.substitute (d.bindings args)))) := by
  unfold fields? instantiated
  rw [replace_argumentFor]
  cases d.shape <;> rfl

end TypeDecl

/-! ### Descriptions of instances -/

namespace Inference

variable {catalog : Catalog} {below : Level}

theorem field_retyped (bindings : TypeExpr.Bindings) (o : Schema) (f : FieldDecl) :
    field catalog below {} o (f.retyped (TypeExpr.substitute bindings)) =
      field catalog below bindings o f := by
  unfold field
  rw [TypeExpr.substitute_empty]
  rfl

theorem object_retyped (fields : List FieldDecl) (bindings : TypeExpr.Bindings) :
    object catalog below (fields.map (·.retyped (TypeExpr.substitute bindings))) {} =
      object catalog below fields bindings := by
  unfold object
  rw [List.foldlM_map]
  simp only [field_retyped]

def Level.Instantiates (l : Level) : Prop :=
  ∀ fields bindings, l.fieldsOf (fields.map (·.retyped (TypeExpr.substitute bindings))) {} =
    l.fieldsOf fields bindings

theorem instantiates_level (catalog : Catalog) (n : Nat) : (level catalog n).Instantiates := by
  cases n with
  | zero => exact fun _ _ => rfl
  | succ n => exact object_retyped

/-- An instance is described, whatever its arguments are, as what it is an instance of. -/
theorem alike_instantiated (hb : below.Instantiates) (d : TypeDecl) (args others : List TypeExpr) :
    equating.logic.Alike (fun _ => True) below below args others d (d.instantiated args) where
  schema := rfl
  deprecated := rfl
  asked _ _ _ _ := trivial
  shape := by
    have hb := fun fields => (hb fields (d.bindings args)).symm
    rw [TypeDecl.bindings_instantiated]
    unfold TypeDecl.instantiated
    rw [TypeDecl.replace_argumentFor]
    cases d.shape with
    | struct fields => exact .struct (hb fields)
    | newtype inner => exact .newtype trivial (TypeExpr.substitute_empty _)
    | enum vs =>
      refine .enum (List.forall₂_map_right_iff.mpr (List.forall₂_same.mpr fun v _ => ⟨rfl, ?_⟩))
      unfold VariantDecl.retyped
      dsimp only
      cases v.payload with
      | unit => exact .unit
      | newtype inner => exact .newtype trivial (TypeExpr.substitute_empty _)
      | struct fields => exact .struct (hb fields)
      | tuple members => exact .tuple _ _

theorem content_instantiated (hb : below.Instantiates) (d : TypeDecl)
    (args others : List TypeExpr) :
    content below d args = content below (d.instantiated args) others :=
  Logic.content (fun _ _ => rfl) (Terms.admits_any _) (alike_instantiated hb d args others)

end Inference

end ApiDoc
