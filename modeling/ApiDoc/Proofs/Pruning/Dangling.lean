import ApiDoc.Proofs.Pruning.Liveness
import ApiDoc.Proofs.Pruning.Targets
import ApiDoc.Proofs.Pruning.Walk

/-!
# References after deprecated components are dropped

What the scan reads in the result stands in the rest of the document or in a live
component, so that a component which it refers to was kept. The scan does not read the
values of a discriminator's mapping: a component to which nothing else refers is
dropped, and the mapping points to nothing.
-/

set_option autoImplicit false

namespace ApiDoc

open References Policy

/-! ### Components that the walk leaves -/

namespace Policy

/-- A policy that removes no schema. -/
theorem isSome_pruneSchema {p : Policy Id} (h : ∀ s, (p.schema s).run.isSome = true) (s : Schema) :
    (p.pruneSchema s).run.isSome = true := by
  obtain ⟨n, hn, -⟩ := s.height_eq_succ
  obtain ⟨k, hk⟩ : ∃ k, s.height + p.reach = k + 1 := ⟨n + p.reach, by omega⟩
  rw [pruneSchema, hk, run_schemaWithin, Option.isSome_map, h]

/-- The component schemas of the document that the walk has gone through. -/
theorem schemas_insideDocument (p : Policy Id) (d : OpenApi) :
    (p.insideDocument d).componentsOrNew.schemas =
      (table p.pruneSchema d.componentsOrNew.schemas).run := by
  simp only [insideDocument, OpenApi.componentsOrNew]
  cases d.components <;> rfl

end Policy

/-! ### Deprecated components that are dropped -/

section DropDeprecated

variable {e : OpenApi} {name : String}

/-- What the scan finds in the result was pending or is a live component's. -/
theorem settled_of_targets (h : name ∈ targets (dropDeprecatedSchemas e).toJson.distinct) :
    Settled e.componentsOrNew.schemas (References.live e) name := by
  have hsaturated := live_saturated e
  have hlive : ∀ key s, e.componentsOrNew.schemas.get? key = some s →
      (!s.isDeprecated || (References.live e).contains key) = true → (!s.isDeprecated) = false →
      name ∈ targets s.toJson.distinct →
      Settled e.componentsOrNew.schemas (References.live e) name := by
    intro key s hget hkept hrest hfound
    rw [hrest, Bool.false_or] at hkept
    have hmem : key ∈ References.live e := by simpa using hkept
    exact hsaturated.closed key hmem List.not_mem_nil s hget name hfound
  rcases targets_withSchemas e hlive h with hsettled | hrest
  · exact hsettled
  · exact hsaturated.settled name hrest

theorem contains_of_settled (h : Settled e.componentsOrNew.schemas (References.live e) name)
    (hname : e.componentsOrNew.schemas.contains name = true) :
    (dropDeprecatedSchemas e).componentsOrNew.schemas.contains name = true := by
  obtain ⟨s, hs⟩ := Option.isSome_iff_exists.mp hname
  have hresult : (dropDeprecatedSchemas e).componentsOrNew.schemas =
      e.componentsOrNew.schemas.filter fun key s =>
        !s.isDeprecated || (References.live e).contains key := by
    simp only [dropDeprecatedSchemas, OpenApi.componentsOrNew]
    cases e.components <;> rfl
  have hkept : (!s.isDeprecated || (References.live e).contains name) = true := by
    cases hd : s.isDeprecated with
    | false => rfl
    | true => simpa using h s hs hd
  rw [hresult, Ordered.contains, Ordered.get?_filter hs hkept]
  rfl

end DropDeprecated

/-- A component schema to which the scan of the result finds a reference, at whatever
depth, is in the result if it was in the document. -/
theorem dropDeprecated_keeps_targets (d : OpenApi) {name : String}
    (h : name ∈ targets (d.prune dropDeprecated).toJson.distinct)
    (hname : d.componentsOrNew.schemas.contains name = true) :
    (d.prune dropDeprecated).componentsOrNew.schemas.contains name = true := by
  have hresult : d.prune dropDeprecated =
      dropDeprecatedSchemas (dropDeprecated.insideDocument d) := run_prune dropDeprecated d
  have hschemas := schemas_insideDocument dropDeprecated d
  rw [hresult] at h ⊢
  apply contains_of_settled (settled_of_targets h)
  -- the walk removes no schema
  obtain ⟨s, hs⟩ := Option.isSome_iff_exists.mp hname
  rw [hschemas, contains_run_table, List.any_eq_true]
  refine ⟨(name, s), Ordered.mem_of_get? _ hs, ?_⟩
  rw [isSome_pruneSchema (fun _ => rfl) s, Bool.and_true]
  exact beq_self_eq_true name

/-! ### References of schemas -/

namespace OpenApi

def Resolves (d : OpenApi) (pointer : String) : Prop :=
  ∀ name, References.target? pointer = some name →
    d.componentsOrNew.schemas.contains name = true

end OpenApi

/-- The reference of a schema is a row of its JSON form. -/
theorem Schema.reference_row {s : Schema} {pointer : String} (h : s.reference = some pointer) :
    ∃ rows, s.toJson = .object rows ∧ ("$ref", .text pointer) ∈ rows := by
  refine ⟨_, s.toJson_eq, List.mem_append_left _ (List.mem_filterMap.mpr ⟨_, .head _, ?_⟩)⟩
  simp [h, Codec.text]

/-- If every reference of a schema led to a component schema, every one that is left
still does. -/
theorem dropDeprecated_keeps_references (d : OpenApi) (hplain : d.toJson.Plain)
    (h : ∀ pointer, d.Refers pointer → d.Resolves pointer) :
    ∀ pointer, (d.prune dropDeprecated).Refers pointer →
      (d.prune dropDeprecated).Resolves pointer := by
  intro pointer hrefers name hname
  have hcontains := h pointer (refers_of_prune_dropDeprecated hrefers) name hname
  have hresult := (thinner_prune_dropDeprecated d).plain hplain
  obtain ⟨s, hs, hpointer⟩ := hrefers
  obtain ⟨rows, hrows, hrow⟩ := Schema.reference_row hpointer
  have hin : (d.prune dropDeprecated).toJson.Contains (.object rows) := hrows ▸ hs.toJson
  exact dropDeprecated_keeps_targets d (mem_targets_of_plain hresult hin hrow hname) hcontains

def pet : Schema :=
  { oneOf := [{ reference := some "#/components/schemas/Cat" }]
    keywords := { discriminator := some {
      propertyName := "kind", mapping := .ofRows [("old", "#/components/schemas/Old")] } } }

def oldPet : Schema := { keywords := { type := some .object, deprecated := some true } }

def petDocument : OpenApi :=
  { components := some { schemas := .ofRows [("Pet", pet), ("Cat", oldPet), ("Old", oldPet)] } }

theorem schemas_petDocument {s : Schema} (h : petDocument.Includes (.schema s)) :
    s = pet ∨ s = { reference := some "#/components/schemas/Cat" } ∨ s = oldPet := by
  have hpet : (Node.schema pet).rows ++ (Node.schema pet).aside =
      [(["oneOf"], .schema { reference := some "#/components/schemas/Cat" })] := rfl
  have hold : ∀ n, (Node.schema oldPet).Includes n → n = .schema oldPet := by
    intro n hn
    cases hn with
    | self => rfl
    | child hr _ => cases hr
  obtain ⟨row, hrow, hs⟩ := h
  have hrow : row ∈ [(["components", "schemas", "Pet"], Node.schema pet),
      (["components", "schemas", "Cat"], .schema oldPet),
      (["components", "schemas", "Old"], .schema oldPet)] := hrow
  cases hrow with
  | head =>
    cases hs with
    | self => exact Or.inl rfl
    | child hr hs =>
      rw [hpet] at hr
      cases List.mem_singleton.mp hr
      cases hs with
      | self => exact Or.inr (Or.inl rfl)
      | child hr _ => cases hr
  | tail _ hrow =>
    refine Or.inr (Or.inr ?_)
    cases hrow with
    | head =>
      cases hold _ hs
      rfl
    | tail _ hrow =>
      cases List.mem_singleton.mp hrow
      cases hold _ hs
      rfl

theorem prune_petDocument : petDocument.prune dropDeprecated =
    { components := some { schemas := .ofRows [("Pet", pet), ("Cat", oldPet)] } } := by
  have hlive : References.live (dropDeprecated.insideDocument petDocument) = ["Cat"] := by
    decide +kernel
  have hresult : petDocument.prune dropDeprecated =
      dropDeprecatedSchemas (dropDeprecated.insideDocument petDocument) := run_prune _ _
  rw [hresult, dropDeprecatedSchemas, hlive]
  rfl

theorem pet_left : (petDocument.prune dropDeprecated).Includes (.schema pet) := by
  rw [prune_petDocument]
  exact ⟨(["components", "schemas", "Pet"], .schema pet), .head _, .self _⟩

theorem target_cat : References.target? "#/components/schemas/Cat" = some "Cat" := by
  decide +kernel

theorem refers_petDocument {pointer : String} (h : petDocument.Refers pointer) :
    petDocument.Resolves pointer := by
  obtain ⟨s, hs, hpointer⟩ := h
  rcases schemas_petDocument hs with rfl | rfl | rfl <;> cases hpointer
  intro name hname
  rw [target_cat] at hname
  cases hname
  rfl

theorem dropDeprecated_keeps_references_pet :
    petDocument.toJson.Plain ∧ (∀ pointer, petDocument.Refers pointer →
      petDocument.Resolves pointer) ∧
    (petDocument.prune dropDeprecated).componentsOrNew.schemas.contains "Cat" = true := by
  have hplain : petDocument.toJson.Plain := Json.plain_of_isPlain (by decide +kernel)
  have hresolves : ∀ pointer, petDocument.Refers pointer → petDocument.Resolves pointer :=
    fun _ => refers_petDocument
  have hrefers : (petDocument.prune dropDeprecated).Refers "#/components/schemas/Cat" := by
    obtain ⟨row, hrow, hpet⟩ := pet_left
    have hcat : (["oneOf"], .schema { reference := some "#/components/schemas/Cat" }) ∈
        (Node.schema pet).rows ++ (Node.schema pet).aside := .head _
    exact ⟨_, ⟨row, hrow, hpet.trans (.child hcat (.self _))⟩, rfl⟩
  exact ⟨hplain, hresolves, dropDeprecated_keeps_references petDocument hplain hresolves _ hrefers
    "Cat" target_cat⟩

/-! ### Mappings -/

def OpenApi.Maps (d : OpenApi) (pointer : String) : Prop :=
  ∃ s, d.Includes (.schema s) ∧ ∃ discriminator, s.keywords.discriminator = some discriminator ∧
    pointer ∈ discriminator.mapping.values

/-- The component to which only a mapping points is dropped. -/
theorem mapping_dangles :
    ¬ ((∀ pointer, petDocument.Refers pointer ∨ petDocument.Maps pointer →
        petDocument.Resolves pointer) →
      ∀ pointer, (petDocument.prune dropDeprecated).Refers pointer ∨
        (petDocument.prune dropDeprecated).Maps pointer →
          (petDocument.prune dropDeprecated).Resolves pointer) := by
  intro h
  have hold : References.target? "#/components/schemas/Old" = some "Old" := by decide +kernel
  have hbefore : ∀ pointer, petDocument.Refers pointer ∨ petDocument.Maps pointer →
      petDocument.Resolves pointer := by
    rintro pointer (hrefers | ⟨s, hs, discriminator, hd, hpointer⟩)
    · exact refers_petDocument hrefers
    · rcases schemas_petDocument hs with rfl | rfl | rfl <;> cases hd
      intro name hname
      rw [List.mem_singleton.mp hpointer, hold] at hname
      cases hname
      rfl
  have hafter := h hbefore "#/components/schemas/Old"
    (Or.inr ⟨pet, pet_left, _, rfl, List.mem_singleton_self _⟩) "Old" hold
  rw [prune_petDocument] at hafter
  cases hafter

end ApiDoc
