import ApiDoc.Proofs.Inference.Handles

/-!
# Fields that are absent

A field that is skipped or hidden is passed over wherever the fields of a struct or
of a variant are described: in its own object, in one that it is flattened into, and
under every instance of a generic declaration. So a catalog describes all types as it
does without these fields, and opens the same components for them.
-/

set_option autoImplicit false

namespace ApiDoc

def presentFields (fields : List FieldDecl) : List FieldDecl := fields.filter fun f => !f.isAbsent

def VariantPayload.trimmed : VariantPayload → VariantPayload
  | .struct fields => .struct (presentFields fields)
  | payload => payload

def VariantDecl.trimmed (v : VariantDecl) : VariantDecl := { v with payload := v.payload.trimmed }

def TypeShape.trimmed : TypeShape → TypeShape
  | .struct fields => .struct (presentFields fields)
  | .enum variants => .enum (variants.map VariantDecl.trimmed)
  | .newtype inner => .newtype inner

def TypeDecl.trimmed (d : TypeDecl) : TypeDecl := { d with shape := d.shape.trimmed }

def Catalog.trimmed (catalog : Catalog) : Catalog := catalog.mapValues TypeDecl.trimmed

theorem Catalog.get?_trimmed (catalog : Catalog) (name : String) :
    catalog.trimmed.get? name = (catalog.get? name).map TypeDecl.trimmed :=
  Ordered.get?_mapValues _ _ _

theorem TypeDecl.fields?_trimmed (d : TypeDecl) :
    d.trimmed.fields? = d.fields?.map presentFields := by
  unfold fields? trimmed
  cases d.shape <;> rfl

namespace Inference

variable {catalog : Catalog} {below : Level}

def Level.SkipsAbsent (l : Level) : Prop :=
  ∀ fields bindings, l.fieldsOf (presentFields fields) bindings = l.fieldsOf fields bindings

theorem object_presentFields (fields : List FieldDecl) (bindings : TypeExpr.Bindings) :
    object catalog below (presentFields fields) bindings =
      object catalog below fields bindings := by
  have hpassed : ∀ (o : Schema) (f : FieldDecl),
      (if !f.isAbsent then field catalog below bindings o f else pure o) =
        field catalog below bindings o f := by
    intro o f
    cases ha : f.isAbsent with
    | true => simp [field, ha]
    | false => rfl
  unfold object presentFields
  rw [List.foldlM_filter]
  simp only [hpassed]

theorem skipsAbsent_level (catalog : Catalog) (n : Nat) : (level catalog n).SkipsAbsent := by
  cases n with
  | zero => exact fun _ _ => rfl
  | succ n => exact object_presentFields

/-- With or without its absent fields a declaration is described alike. -/
theorem alike_trimmed (hb : below.SkipsAbsent) (d : TypeDecl) (args : List TypeExpr) :
    equating.logic.Alike (fun _ => True) below below args args d.trimmed d where
  schema := rfl
  deprecated := rfl
  asked _ _ _ _ := trivial
  shape := by
    unfold TypeDecl.trimmed
    dsimp only
    cases d.shape with
    | struct fields => exact .struct (hb fields _)
    | newtype inner => exact .newtype trivial rfl
    | enum vs =>
      refine .enum (List.forall₂_map_left_iff.mpr (List.forall₂_same.mpr fun v _ => ⟨rfl, ?_⟩))
      unfold VariantDecl.trimmed
      dsimp only
      cases v.payload with
      | unit => exact .unit
      | newtype inner => exact .newtype trivial rfl
      | struct fields => exact .struct (hb fields _)
      | tuple members => exact .tuple _ _

theorem component_trimmed (hb : below.SkipsAbsent) (d : TypeDecl) (t : TypeExpr) :
    component below d.trimmed t = component below d t :=
  component_eq_of_content rfl
    (Logic.content (fun _ _ => rfl) (Terms.admits_any _) (alike_trimmed hb d t.args))

theorem linked_trimmed (catalog : Catalog) (hb : below.SkipsAbsent) :
    equating.logic.Linked (fun _ => True)
      ⟨describe catalog.trimmed below, object catalog.trimmed below⟩
      ⟨describe catalog below, object catalog below⟩ := by
  refine Logic.Linked.over ⟨fun _ _ => rfl, fun _ _ _ => rfl⟩ (fun _ _ _ _ => trivial)
    (fun t _ _ => ?_) fun t _ => ?_
  · rw [Catalog.get?_trimmed]
    cases catalog.get? t.name with
    | none => exact .none
    | some d => exact .some (component_trimmed hb d t)
  · unfold splice?
    rw [Catalog.get?_trimmed]
    cases catalog.get? t.name with
    | none => exact .none
    | some d =>
      simp only [Option.map_some, Option.bind_some, TypeDecl.fields?_trimmed]
      cases d.fields? with
      | none => exact .none
      | some fields => exact .some (hb fields _)

theorem level_trimmed (catalog : Catalog) (n : Nat) :
    level catalog.trimmed n = level catalog n := by
  induction n with
  | zero => rfl
  | succ n ih =>
    have hl := linked_trimmed catalog (skipsAbsent_level catalog n)
    unfold level
    rw [ih]
    refine congrArg₂ Level.mk (funext fun t => hl.schemaOf t trivial) ?_
    exact funext fun fields => funext fun bindings =>
      hl.fieldsOf fields bindings fun _ _ => Terms.ready_any fun _ _ => trivial

def answers (infer : TypeExpr → Gen Schema) (a : Arena) :
    List Request → List (Except Failure Schema) × Arena
  | [] => ([], a)
  | r :: rs =>
    let first := (r.answer infer).outcome a
    let later := answers infer first.2 rs
    (first.1 :: later.1, later.2)

end Inference

end ApiDoc
