import ApiDoc.Proofs.Inference.Siblings

/-!
# Names that inferred schemas require

A name is required together with its property: where a field or a variant writes one, and
where a flattened struct brings its own along. Nothing else touches either of them, for what
a note says is required is the place of a schema. So whatever inference makes requires
properties of its own, each of them once.
-/

set_option autoImplicit false

namespace ApiDoc

namespace Schema

structure WellRequired (s : Schema) : Prop where
  once : s.keywords.required.Nodup
  own : s.RequiresOwn

theorem wellRequired_of_nil {s : Schema} (h : s.keywords.required = []) : s.WellRequired where
  once := h ▸ List.nodup_nil
  own _ hn := absurd (h ▸ hn) List.not_mem_nil

/-- Only the required names and the keys of the properties matter. -/
theorem WellRequired.of_keys {s u : Schema} (h : s.WellRequired)
    (hr : u.keywords.required = s.keywords.required)
    (hk : s.properties.keys ⊆ u.properties.keys) : u.WellRequired where
  once := hr ▸ h.once
  own name hn := hk (h.own name (hr ▸ hn))

/-- Names that are required become properties at the same time. -/
theorem WellRequired.requireAll {s : Schema} (h : s.WellRequired) {names : List String}
    {properties : Ordered Schema} (hs : s.properties.keys ⊆ properties.keys)
    (hn : names ⊆ properties.keys) :
    WellRequired { names.foldl require s with properties := properties } := by
  rw [requireAll_eq]
  refine ⟨nodup_foldl_withName h.once, fun name hname => ?_⟩
  rcases mem_foldl_withName.mp hname with hname | hname
  · exact hs (h.own name hname)
  · exact hn hname

end Schema

namespace Inference

open Schema (WellRequired wellRequired_of_nil)

abbrev Orderly (s : Schema) : Prop := s.Everywhere WellRequired

theorem orderly_of_leaf {s : Schema} (h : s.keywords.required = []) (hs : s.children = []) :
    Orderly s :=
  Schema.everywhere_of_below (wellRequired_of_nil h) (Schema.below_of_leaf hs)

/-! ### Schemas made of others -/

theorem Orderly.keywords {s : Schema} (h : Orderly s) {k : Keywords}
    (hk : k.required = s.keywords.required) : Orderly { s with keywords := k } :=
  Schema.everywhere_of_below (h.here.of_keys hk (List.Subset.refl _)) { h.below with }

theorem Orderly.arrayOf {s : Schema} (h : Orderly s) : Orderly (.arrayOf s) :=
  Schema.everywhere_of_below (wellRequired_of_nil rfl) { Schema.below_of_leaf (s := {}) rfl with
    items := fun c hc => by cases hc; exact h }

theorem Orderly.put {o s : Schema} (ho : Orderly o) (name : String) (hs : Orderly s) :
    Orderly { o with properties := o.properties.put name s } :=
  Schema.everywhere_of_below
    (ho.here.of_keys rfl (o.properties.prefix_keys_put name s).subset) (ho.below.put name hs)

/-- Names are required of an object that takes the properties of those names over. -/
theorem Orderly.absorb {o : Schema} (ho : Orderly o) {names : List String}
    {rows : List (String × Schema)} (hn : names ⊆ rows.map Prod.fst)
    (hr : ∀ row ∈ rows, Orderly row.2) :
    Orderly { names.foldl Schema.require o with
      properties := (names.foldl Schema.require o).properties.putAll rows } := by
  have hbelow := ho.below.requireAll names
  refine Schema.everywhere_of_below (ho.here.requireAll ?_ ?_) { hbelow with
    properties := hbelow.properties.putAll hr }
  all_goals rw [Schema.requireAll_eq]
  · exact (o.properties.prefix_keys_putAll rows).subset
  · exact fun name h => (o.properties.mem_keys_putAll rows).mpr (Or.inr (hn h))

theorem Orderly.require {o s : Schema} (ho : Orderly o) (name : String) (hs : Orderly s) :
    Orderly { o.require name with properties := (o.require name).properties.put name s } := by
  have hsame : [name] ⊆ [(name, s)].map Prod.fst := List.Subset.refl _
  exact ho.absorb hsame (List.forall_mem_singleton.mpr hs)

/-- Nothing that is laid over a schema requires a name. -/
theorem Orderly.declare {s u : Schema} (hs : Orderly s) (hr : u.keywords.required = [])
    (hu : u.Below Orderly) : Orderly (s.declare u) := by
  have hover : ∀ lower : Schema, (lower.overlay u).keywords.required = lower.keywords.required :=
    fun lower => by simp [Schema.overlay, Keywords.overlay, orList, hr]
  unfold Schema.declare
  split
  · exact hs
  · split
    · have hwrapped : Schema.Below Orderly { allOf := [s] } :=
        { Schema.below_of_leaf (s := {}) rfl with allOf := List.forall_mem_singleton.mpr hs }
      exact Schema.everywhere_of_below (wellRequired_of_nil (hover _)) (hwrapped.overlay hu)
    · exact Schema.everywhere_of_below (hs.here.of_keys (hover s) (List.Subset.refl _))
        (hs.below.overlay hu)

/-! ### Inference -/

/-- A note declares keywords, but requires no name. -/
theorem required_keywords {n : SchemaNote} {hint : Option SchemaType} {k : Keywords}
    (h : keywords n hint = .ok k) : k.required = [] := by
  unfold keywords at h
  obtain ⟨multipleOf, -, h⟩ := Except.bind_eq_ok h
  obtain ⟨maximum, -, h⟩ := Except.bind_eq_ok h
  obtain ⟨minimum, -, h⟩ := Except.bind_eq_ok h
  obtain ⟨extensions, -, h⟩ := Except.bind_eq_ok h
  cases h
  rfl

def orderliness : Terms where
  schema := Orderly
  failure _ := True
  declaration _ := True
  blank := orderly_of_leaf rfl rfl
  scalar t s h := by
    obtain ⟨_, _, rfl⟩ := scalar?_eq_some h
    exact orderly_of_leaf rfl rfl
  nullable t s h := by
    obtain ⟨_, _, rfl⟩ := scalar?_eq_some h
    exact orderly_of_leaf rfl rfl
  ofType _ := orderly_of_leaf rfl rfl
  ofFormat _ _ := orderly_of_leaf rfl rfl
  words _ := orderly_of_leaf rfl rfl
  mapOf s h := Schema.everywhere_of_below (wellRequired_of_nil rfl)
    { Schema.below_of_leaf (s := {}) rfl with additional := fun c hc => by cases hc; exact h }
  arrayOf s h := h.arrayOf
  unique s h := h.arrayOf.keywords rfl
  oneOf ss h := Schema.everywhere_of_below (wellRequired_of_nil rfl)
    { Schema.below_of_leaf (s := {}) rfl with oneOf := h }
  tagged name s h := (orderly_of_leaf (s := .ofType .object) rfl rfl).require name h
  property o name s ho _ hs := ho.put name hs
  required o name s ho _ hs := ho.require name hs
  part o s ho _ hs := Schema.everywhere_of_below (ho.here.of_keys rfl (List.Subset.refl _))
    { ho.below with
      allOf := List.forall_mem_append.mpr ⟨ho.below.allOf, List.forall_mem_singleton.mpr hs⟩ }
  absorb o i ho _ hi :=
    ho.absorb (i.properties.map_fst_entries ▸ hi.here.own) hi.below.properties
  declare s n hint k d ones anys alls negated hs hk h₁ h₂ h₃ h₄ :=
    hs.declare (u := {
        keywords := { k with discriminator := d }
        oneOf := ones, anyOf := anys, allOf := alls, negated := negated })
      (required_keywords hk :) { Schema.below_of_leaf (s := {}) rfl with
        oneOf := h₁, anyOf := h₂, allOf := h₃, negated := h₄ }
  deprecated d s _ _ hs _ := hs.keywords rfl

/-- After any requests, whether answered or not, each name that is required in a stored
component or in a further answer, at any depth, is a property there and is required once. -/
theorem required_names_are_properties (catalog : Catalog) (depth : Nat) (rs : List Request)
    (r : Request) (hrs : ∀ q ∈ r :: rs, ∀ s, q.given = some s → s.Everywhere WellRequired) :
    (∀ c ∈ (afterRequests catalog depth rs).components, c.schema.Everywhere WellRequired) ∧
    ∀ s, ((r.answer (schemaOf catalog depth)).outcome (afterRequests catalog depth rs)).1 = .ok s →
      s.Everywhere WellRequired :=
  Terms.stored_and_answered (T := orderliness) (fun _ => trivial)
    (fun _ => orderly_of_leaf rfl rfl) (fun _ _ _ => trivial) depth rs r hrs

section Witness

def mustHave : SchemaNote := { required := some true }

def personCatalog : Catalog := Catalog.ofList [
  { name := "Person"
    shape := .struct [
      { name := "name", type := ⟨"String", []⟩, schema := some mustHave },
      { name := "key", type := ⟨"Key", []⟩, flattened := true },
      { name := "state", type := ⟨"Option", [⟨"State", []⟩]⟩ }] },
  { name := "Key"
    shape := .struct [
      { name := "id", type := ⟨"u64", []⟩, schema := some mustHave },
      { name := "alias", rename := some "name", type := ⟨"String", []⟩
        schema := some mustHave }] },
  { name := "State"
    shape := .enum [{ name := "Here" }, { name := "Left", payload := .newtype ⟨"u64", []⟩ }] }]

def personRequests : List Request := [.schemaOf ⟨"Vec", [⟨"Person", []⟩]⟩]

def titledPerson : Request := .merge (tagged "name" {}) { title := some "A person" }

theorem required_names_are_properties_person :
    (∀ q ∈ titledPerson :: personRequests, ∀ s, q.given = some s →
      s.Everywhere WellRequired) ∧
    (afterRequests personCatalog 9 personRequests).components.map
      (fun c => (c.name, c.schema.keywords.required, c.schema.properties.keys)) =
      [("Person", ["name", "id"], ["name", "id", "state"]), ("State", [], [])] ∧
    (∀ c ∈ (afterRequests personCatalog 9 personRequests).components,
      c.schema.Everywhere WellRequired) ∧
    ∀ s, ((titledPerson.answer (schemaOf personCatalog 9)).outcome
        (afterRequests personCatalog 9 personRequests)).1 = .ok s →
      s.Everywhere WellRequired := by
  have hgiven : ∀ q ∈ titledPerson :: personRequests, ∀ s, q.given = some s →
      s.Everywhere WellRequired := by
    intro q hq s hs
    simp only [personRequests, List.mem_cons, List.not_mem_nil, or_false] at hq
    rcases hq with rfl | rfl <;> cases hs
    exact (orderly_of_leaf (s := .ofType .object) rfl rfl).require "name" (orderly_of_leaf rfl rfl)
  exact ⟨hgiven, rfl, required_names_are_properties personCatalog 9 personRequests titledPerson
    hgiven⟩

end Witness

end Inference

end ApiDoc
