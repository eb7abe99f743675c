import Mathlib.Logic.Relation
import ApiDoc.Inference.Basic
import ApiDoc.Proofs.SchemaNotes

/-!
# What a description demands

A level describes a type by what the level below answers for others: for the types
that are looked at, which are not all that are written, and for structs whose fields
are taken over. A set of types that holds all that its declarations mention holds
these as well.
-/

set_option autoImplicit false

namespace ApiDoc

/-! ### Types that are mentioned -/

namespace SchemaNote

def types (n : SchemaNote) : List TypeExpr :=
  n.implementation.toList ++ n.oneOf ++ n.anyOf ++ n.allOf ++ n.negated.toList
    ++ n.mapping.map (·.type)

end SchemaNote

def noteTypes (n : Option SchemaNote) : List TypeExpr := n.toList.flatMap (·.types)

namespace FieldDecl

def types (bindings : TypeExpr.Bindings) (f : FieldDecl) : List TypeExpr :=
  if f.isAbsent then [] else f.type.substitute bindings :: noteTypes f.schema

end FieldDecl

namespace VariantDecl

/-- The members of a tuple variant are not described. -/
def types (bindings : TypeExpr.Bindings) (v : VariantDecl) : List TypeExpr :=
  match v.payload with
  | .unit | .tuple _ => []
  | .newtype inner => [inner.substitute bindings]
  | .struct fields => fields.flatMap (·.types bindings)

end VariantDecl

namespace TypeShape

def types (bindings : TypeExpr.Bindings) : TypeShape → List TypeExpr
  | .struct fields => fields.flatMap (·.types bindings)
  | .enum variants => variants.flatMap (·.types bindings)
  | .newtype inner => [inner.substitute bindings]

end TypeShape

namespace TypeDecl

def types (d : TypeDecl) (args : List TypeExpr) : List TypeExpr :=
  d.shape.types (d.bindings args) ++ noteTypes d.schema

end TypeDecl

/-- A set of types that description does not leave. -/
structure Catalog.Closed (catalog : Catalog) (S : TypeExpr → Prop) : Prop where
  args : ∀ t, S t → ∀ u ∈ t.args, S u
  declared : ∀ t d, S t → catalog.get? t.name = some d → ∀ u ∈ d.types t.args, S u

/-! ### Demands -/

inductive Demand where
  | schema (type : TypeExpr)
  /-- The properties of a type that is flattened. -/
  | flattened (type : TypeExpr)

def Demand.type : Demand → TypeExpr
  | .schema t | .flattened t => t

/-- The declaration of the type is looked at, if it has one. -/
def Demand.opens : Demand → Bool
  | .schema t => (Inference.scalar? t).isNone && Inference.Head.ofName t.name = .named
  | .flattened _ => true

namespace SchemaNote

def selected (n : SchemaNote) : List TypeExpr :=
  if n.discriminator.isSome then n.mapping.map (·.type) else []

def asked (n : SchemaNote) : List TypeExpr :=
  if n.reference.isSome then []
  else n.oneOf ++ n.anyOf ++ n.allOf ++ n.negated.toList ++ n.selected

def askedAlone (n : SchemaNote) : List TypeExpr :=
  if n.reference.isSome then [] else n.implementation.toList ++ n.asked

def askedAt (t : TypeExpr) : Option SchemaNote → List TypeExpr
  | none => [t]
  | some n => if n.replacesInference then n.askedAlone else t :: n.asked

end SchemaNote

def FieldDecl.demands (bindings : TypeExpr.Bindings) (f : FieldDecl) : List Demand :=
  if f.isAbsent then []
  else if f.flattened then [.flattened (f.type.substitute bindings)]
  else (SchemaNote.askedAt (f.type.substitute bindings) f.schema).map .schema

def VariantDecl.demands (bindings : TypeExpr.Bindings) (v : VariantDecl) : List Demand :=
  match v.payload with
  | .unit | .tuple _ => []
  | .newtype inner => [.schema (inner.substitute bindings)]
  | .struct fields => fields.flatMap (·.demands bindings)

def TypeShape.demands (bindings : TypeExpr.Bindings) : TypeShape → List Demand
  | .struct fields => fields.flatMap (·.demands bindings)
  | .enum variants => variants.flatMap (·.demands bindings)
  | .newtype inner => [.schema (inner.substitute bindings)]

def TypeDecl.demands (d : TypeDecl) (args : List TypeExpr) : List Demand :=
  d.shape.demands (d.bindings args) ++ (d.schema.toList.flatMap (·.asked)).map .schema

namespace Catalog

def schemaDemands (catalog : Catalog) (t : TypeExpr) : List Demand :=
  match Inference.scalar? t with
  | some _ => []
  | none =>
    match Inference.Head.ofName t.name, t.args with
    | .option, inner :: _ | .pointer, inner :: _ => [.schema inner]
    | .map, _ :: value :: _ => [.schema value]
    | .sequence _ binary, inner :: _ =>
      if binary && inner.name = "u8" then [] else [.schema inner]
    | .named, _ => (catalog.get? t.name).elim [] fun d => d.demands t.args
    | _, _ => []

def flattenedDemands (catalog : Catalog) (t : TypeExpr) : List Demand :=
  match (catalog.get? t.name).bind fun d => d.fields?.map fun fields => (d, fields) with
  | some (d, fields) => fields.flatMap (·.demands (d.bindings t.args))
  | none => [.schema t]

def demands (catalog : Catalog) : Demand → List Demand
  | .schema t => catalog.schemaDemands t
  | .flattened t => catalog.flattenedDemands t

def LeadsTo (catalog : Catalog) : Demand → Demand → Prop :=
  Relation.ReflTransGen fun x y => y ∈ catalog.demands x

end Catalog

/-! ### Where a demand comes from -/

theorem FieldDecl.flattened_mem_demands {bindings : TypeExpr.Bindings} {f : FieldDecl}
    {t : TypeExpr} : .flattened t ∈ f.demands bindings ↔
      f.isAbsent = false ∧ f.flattened = true ∧ t = f.type.substitute bindings := by
  unfold demands
  cases f.isAbsent <;> cases f.flattened <;> simp

namespace TypeDecl

def fieldLists (d : TypeDecl) : List (List FieldDecl) :=
  match d.shape with
  | .struct fields => [fields]
  | .enum variants => variants.filterMap fun v =>
    match v.payload with
    | .struct fields => some fields
    | _ => none
  | .newtype _ => []

theorem mem_fieldLists_of_fields? {d : TypeDecl} {fields : List FieldDecl}
    (h : d.fields? = some fields) : fields ∈ d.fieldLists := by
  unfold fields? at h
  unfold fieldLists
  cases hs : d.shape with
  | struct fs => simpa [hs, eq_comm] using h
  | enum vs => simp [hs] at h
  | newtype inner => simp [hs] at h

theorem mem_fieldLists_of_variant {d : TypeDecl} {vs : List VariantDecl} {v : VariantDecl}
    {fields : List FieldDecl} (hd : d.shape = .enum vs) (hv : v ∈ vs)
    (hp : v.payload = .struct fields) : fields ∈ d.fieldLists := by
  unfold fieldLists
  rw [hd]
  exact List.mem_filterMap.mpr ⟨v, hv, by rw [hp]⟩

theorem demands_of_fieldLists {d : TypeDecl} {args : List TypeExpr} {fields : List FieldDecl}
    (h : fields ∈ d.fieldLists) {f : FieldDecl} (hf : f ∈ fields) :
    ∀ x ∈ f.demands (d.bindings args), x ∈ d.demands args := by
  intro x hx
  have hall : x ∈ fields.flatMap (·.demands (d.bindings args)) := List.mem_flatMap.mpr ⟨f, hf, hx⟩
  apply List.mem_append_left
  unfold fieldLists at h
  cases hs : d.shape with
  | newtype inner => simp [hs] at h
  | struct fs =>
    rw [hs] at h
    rwa [List.mem_singleton.mp h] at hall
  | enum vs =>
    rw [hs] at h
    obtain ⟨v, hv, hp⟩ := List.mem_filterMap.mp h
    refine List.mem_flatMap.mpr ⟨v, hv, ?_⟩
    unfold VariantDecl.demands
    cases hpay : v.payload <;> rw [hpay] at hp <;> cases hp
    exact hall

theorem schemaNotes_of_fieldLists {d : TypeDecl} {fields : List FieldDecl}
    (h : fields ∈ d.fieldLists) {f : FieldDecl} (hf : f ∈ fields) :
    ∀ n ∈ f.schema, n ∈ d.schemaNotes := by
  intro n hn
  have hall : n ∈ fields.flatMap (·.schema.toList) :=
    List.mem_flatMap.mpr ⟨f, hf, Option.mem_toList.mpr hn⟩
  apply List.mem_append_right
  unfold fieldLists at h
  cases hs : d.shape with
  | newtype inner => simp [hs] at h
  | struct fs =>
    rw [hs] at h
    rwa [List.mem_singleton.mp h] at hall
  | enum vs =>
    rw [hs] at h
    obtain ⟨v, hv, hp⟩ := List.mem_filterMap.mp h
    refine List.mem_flatMap.mpr ⟨v, hv, ?_⟩
    cases hpay : v.payload <;> rw [hpay] at hp <;> cases hp
    exact hall

end TypeDecl

namespace Catalog

theorem schemaDemands_named {catalog : Catalog} {t : TypeExpr} {d : TypeDecl}
    (hs : Inference.scalar? t = none) (hh : Inference.Head.ofName t.name = .named)
    (hd : catalog.get? t.name = some d) : catalog.schemaDemands t = d.demands t.args := by
  simp [schemaDemands, hs, hh, hd]

theorem flattenedDemands_struct {catalog : Catalog} {t : TypeExpr} {d : TypeDecl}
    {fields : List FieldDecl} (hd : catalog.get? t.name = some d) (hf : d.fields? = some fields) :
    catalog.flattenedDemands t = fields.flatMap (·.demands (d.bindings t.args)) := by
  simp [flattenedDemands, hd, hf]

theorem flattenedDemands_other {catalog : Catalog} {t : TypeExpr}
    (h : ∀ d, catalog.get? t.name = some d → d.fields? = none) :
    catalog.flattenedDemands t = [.schema t] := by
  unfold flattenedDemands
  cases hd : catalog.get? t.name with
  | none => rfl
  | some d => simp [h d hd]

/-- A container looks at nothing but its arguments. -/
theorem exists_arg_of_schemaDemands {catalog : Catalog} {t : TypeExpr}
    (hh : Inference.Head.ofName t.name ≠ .named) {x : Demand} (hx : x ∈ catalog.schemaDemands t) :
    ∃ u ∈ t.args, x = .schema u := by
  unfold schemaDemands at hx
  cases hs : Inference.scalar? t with
  | some s => simp [hs] at hx
  | none =>
    cases hn : Inference.Head.ofName t.name <;> cases hargs : t.args
    all_goals simp only [hs, hn, hargs, List.not_mem_nil] at hx
    case named.nil | named.cons => exact absurd hn hh
    case option.cons | pointer.cons => exact ⟨_, List.mem_cons_self, List.mem_singleton.mp hx⟩
    case map.cons key rest =>
      cases rest with
      | nil => simp at hx
      | cons value rest =>
        exact ⟨value, List.mem_cons_of_mem _ List.mem_cons_self, List.mem_singleton.mp hx⟩
    case sequence.cons =>
      split at hx
      · simp at hx
      · exact ⟨_, List.mem_cons_self, List.mem_singleton.mp hx⟩

end Catalog

/-! ### Demands are for types that are mentioned -/

namespace SchemaNote

theorem mem_types_of_asked {n : SchemaNote} {t : TypeExpr} (h : t ∈ n.asked) : t ∈ n.types := by
  unfold asked selected at h
  unfold types
  split at h
  · cases h
  · split at h <;> grind

theorem mem_types_of_askedAlone {n : SchemaNote} {t : TypeExpr} (h : t ∈ n.askedAlone) :
    t ∈ n.types := by
  unfold askedAlone at h
  split at h
  · cases h
  · rcases List.mem_append.mp h with h | h
    · simp [types, h]
    · exact mem_types_of_asked h

theorem mem_of_askedAt {t u : TypeExpr} {n : Option SchemaNote} (h : u ∈ askedAt t n) :
    u ∈ t :: noteTypes n := by
  cases n with
  | none => exact List.mem_singleton.mp h ▸ List.mem_cons_self
  | some n =>
    have hnote : ∀ u ∈ n.types, u ∈ t :: noteTypes (some n) := fun u hu =>
      List.mem_cons_of_mem t (by simpa [noteTypes] using hu)
    unfold askedAt at h
    dsimp only at h
    split at h
    · exact hnote u (mem_types_of_askedAlone h)
    · rcases List.mem_cons.mp h with rfl | h
      · exact List.mem_cons_self
      · exact hnote u (mem_types_of_asked h)

end SchemaNote

section Mentioned

variable {bindings : TypeExpr.Bindings} {x : Demand}

theorem FieldDecl.mem_types_of_demands {f : FieldDecl} (h : x ∈ f.demands bindings) :
    x.type ∈ f.types bindings := by
  unfold demands at h
  unfold types
  split at h
  · cases h
  · rename_i ha
    rw [if_neg ha]
    split at h
    · rw [List.mem_singleton.mp h]
      exact List.mem_cons_self
    · obtain ⟨u, hu, rfl⟩ := List.mem_map.mp h
      exact SchemaNote.mem_of_askedAt hu

theorem FieldDecl.mem_flatMap_types {fields : List FieldDecl}
    (h : x ∈ fields.flatMap (·.demands bindings)) : x.type ∈ fields.flatMap (·.types bindings) := by
  obtain ⟨f, hf, hx⟩ := List.mem_flatMap.mp h
  exact List.mem_flatMap.mpr ⟨f, hf, f.mem_types_of_demands hx⟩

theorem VariantDecl.mem_types_of_demands {v : VariantDecl} (h : x ∈ v.demands bindings) :
    x.type ∈ v.types bindings := by
  unfold demands at h
  unfold types
  cases hp : v.payload <;> simp only [hp] at h ⊢
  case unit | tuple => cases h
  case newtype => simp [List.mem_singleton.mp h, Demand.type]
  case struct fields => exact FieldDecl.mem_flatMap_types h

theorem TypeShape.mem_types_of_demands {s : TypeShape} (h : x ∈ s.demands bindings) :
    x.type ∈ s.types bindings := by
  cases s with
  | struct fields => exact FieldDecl.mem_flatMap_types h
  | newtype inner =>
    rw [List.mem_singleton.mp h]
    exact List.mem_cons_self
  | enum vs =>
    obtain ⟨v, hv, hx⟩ := List.mem_flatMap.mp h
    exact List.mem_flatMap.mpr ⟨v, hv, v.mem_types_of_demands hx⟩

theorem TypeDecl.mem_types_of_demands {d : TypeDecl} {args : List TypeExpr}
    (h : x ∈ d.demands args) : x.type ∈ d.types args := by
  rcases List.mem_append.mp h with h | h
  · exact List.mem_append_left _ (TypeShape.mem_types_of_demands h)
  · apply List.mem_append_right
    obtain ⟨u, hu, rfl⟩ := List.mem_map.mp h
    obtain ⟨n, hn, hu⟩ := List.mem_flatMap.mp hu
    exact List.mem_flatMap.mpr ⟨n, hn, SchemaNote.mem_types_of_asked hu⟩

end Mentioned

/-- A set of types that description does not leave is not left by its demands. -/
theorem Catalog.Closed.demands {catalog : Catalog} {S : TypeExpr → Prop} (hc : catalog.Closed S)
    (x : Demand) (hx : S x.type) : ∀ y ∈ catalog.demands x, S y.type := by
  intro y hy
  cases x with
  | schema t =>
    by_cases hh : Inference.Head.ofName t.name = .named
    · cases hs : Inference.scalar? t with
      | some s => simp [Catalog.demands, schemaDemands, hs] at hy
      | none =>
        cases hd : catalog.get? t.name with
        | none => simp [Catalog.demands, schemaDemands, hs, hh, hd] at hy
        | some d =>
          rw [Catalog.demands, schemaDemands_named hs hh hd] at hy
          exact hc.declared t d hx hd _ (TypeDecl.mem_types_of_demands hy)
    · obtain ⟨u, hu, rfl⟩ := exists_arg_of_schemaDemands hh hy
      exact hc.args t hx u hu
  | flattened t =>
    change y ∈ catalog.flattenedDemands t at hy
    by_cases h : ∃ d fields, catalog.get? t.name = some d ∧ d.fields? = some fields
    · obtain ⟨d, fields, hd, hf⟩ := h
      rw [flattenedDemands_struct hd hf] at hy
      obtain ⟨f, hmem, hy⟩ := List.mem_flatMap.mp hy
      have hy := TypeDecl.demands_of_fieldLists (TypeDecl.mem_fieldLists_of_fields? hf) hmem y hy
      exact hc.declared t d hx hd _ (TypeDecl.mem_types_of_demands hy)
    · have hother : ∀ d, catalog.get? t.name = some d → d.fields? = none := fun d hd =>
        Option.eq_none_iff_forall_ne_some.mpr fun fields hf => h ⟨d, fields, hd, hf⟩
      rw [flattenedDemands_other hother] at hy
      rw [List.mem_singleton.mp hy]
      exact hx

end ApiDoc
