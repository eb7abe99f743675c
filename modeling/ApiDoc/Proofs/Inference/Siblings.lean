import ApiDoc.Proofs.Document.Subschemas
import ApiDoc.Proofs.Inference.Stored

/-!
# Nothing beside a reference

Wherever a schema that inference makes is a reference, it is nothing else: what
would stand beside the reference is written beside an `allOf` that holds it.
There is one exception. A deprecated newtype is described by the schema of what
it wraps, and when that is a reference the mark of deprecation comes to stand
beside it.
-/

set_option autoImplicit false

namespace ApiDoc.Inference

def MarksNewtype (catalog : Catalog) : Prop :=
  ∃ name d inner, catalog.get? name = some d ∧ d.deprecated = true ∧ d.shape = .newtype inner

def StandsAlone (catalog : Catalog) (s : Schema) : Prop :=
  ∀ r, s.reference = some r → s = { reference := some r } ∨
    MarksNewtype catalog ∧ s = { reference := some r, keywords := { deprecated := some true } }

variable {catalog : Catalog}

abbrev Tidy (catalog : Catalog) (s : Schema) : Prop := s.Everywhere (StandsAlone catalog)

theorem standsAlone_of_none {s : Schema} (h : s.reference = none) : StandsAlone catalog s := by
  intro r hr
  rw [h] at hr
  cases hr

theorem tidy_of_none {s : Schema} (h : s.reference = none) (hs : s.Below (Tidy catalog)) :
    Tidy catalog s :=
  Schema.everywhere_of_below (standsAlone_of_none h) hs

theorem tidy_of_leaf {s : Schema} (h : s.reference = none) (hs : s.children = []) :
    Tidy catalog s :=
  tidy_of_none h (Schema.below_of_leaf hs)

theorem tidy_refTo (name : String) : Tidy catalog (Schema.refTo name) :=
  Schema.everywhere_of_below (fun _ hr => by cases hr; exact Or.inl rfl)
    (Schema.below_of_leaf rfl)

/-! ### Schemas made of others -/

theorem Tidy.keywords {s : Schema} (h : Tidy catalog s) (hr : s.reference = none) (k : Keywords) :
    Tidy catalog { s with keywords := k } :=
  tidy_of_none hr { h.below with }

theorem Tidy.arrayOf {s : Schema} (h : Tidy catalog s) : Tidy catalog (.arrayOf s) :=
  tidy_of_none rfl { Schema.below_of_leaf (s := {}) rfl with
    items := fun c hc => by cases hc; exact h }

theorem Tidy.put {o s : Schema} (ho : Tidy catalog o) (hr : o.reference = none) (name : String)
    (hs : Tidy catalog s) : Tidy catalog { o with properties := o.properties.put name s } :=
  tidy_of_none hr (ho.below.put name hs)

theorem Tidy.require {o : Schema} (ho : Tidy catalog o) (hr : o.reference = none) (name : String) :
    Tidy catalog (o.require name) :=
  tidy_of_none ((Schema.reference_require o name).trans hr) (ho.below.require name)

/-- A reference moves into `allOf` before anything is laid over it. -/
theorem Tidy.declare {s u : Schema} (hs : Tidy catalog s) (hu : u.Below (Tidy catalog)) :
    Tidy catalog (s.declare u) := by
  unfold Schema.declare
  split
  · exact hs
  · split
    · have hwrapped : Schema.Below (Tidy catalog) { allOf := [s] } :=
        { Schema.below_of_leaf (s := {}) rfl with allOf := List.forall_mem_singleton.mpr hs }
      exact tidy_of_none rfl (hwrapped.overlay hu)
    · have hr : s.reference = none := by simpa using ‹¬ s.reference.isSome = true›
      exact tidy_of_none hr (hs.below.overlay hu)

/-- The mark of deprecation comes to stand beside a reference only on a newtype. -/
theorem Tidy.deprecated {d : TypeDecl} {s : Schema}
    (hd : ∃ name, catalog.get? name = some d) (hdep : d.deprecated = true) (hs : Tidy catalog s)
    (hr : (∀ inner, d.shape ≠ .newtype inner) → s.reference = none) :
    Tidy catalog { s with keywords := { s.keywords with deprecated := some true } } := by
  by_cases href : s.reference = none
  · exact hs.keywords href _
  · have hmarks : MarksNewtype catalog := by
      by_contra hne
      obtain ⟨name, hget⟩ := hd
      exact href (hr fun inner hi => hne ⟨name, d, inner, hget, hdep, hi⟩)
    obtain ⟨r, hsome⟩ := Option.ne_none_iff_exists'.mp href
    rcases hs.here r hsome with rfl | ⟨-, rfl⟩
    all_goals
      refine Schema.everywhere_of_below (fun r' hr' => ?_) (Schema.below_of_leaf rfl)
      cases hr'
      exact Or.inr ⟨hmarks, rfl⟩

/-! ### Inference -/

def tidiness (catalog : Catalog) : Terms where
  schema := Tidy catalog
  failure _ := True
  declaration d := ∃ name, catalog.get? name = some d
  blank := tidy_of_leaf rfl rfl
  scalar t s h := by
    obtain ⟨_, _, rfl⟩ := scalar?_eq_some h
    exact tidy_of_leaf rfl rfl
  nullable t s h := by
    obtain ⟨_, _, rfl⟩ := scalar?_eq_some h
    exact tidy_of_leaf rfl rfl
  ofType _ := tidy_of_leaf rfl rfl
  ofFormat _ _ := tidy_of_leaf rfl rfl
  words _ := tidy_of_leaf rfl rfl
  mapOf s h := tidy_of_none rfl { Schema.below_of_leaf (s := {}) rfl with
    additional := fun c hc => by cases hc; exact h }
  arrayOf s h := h.arrayOf
  unique s h := h.arrayOf.keywords rfl _
  oneOf ss h := tidy_of_none rfl { Schema.below_of_leaf (s := {}) rfl with oneOf := h }
  tagged name s h := ((tidy_of_leaf rfl rfl).require rfl name).put rfl name h
  property o name s ho hr hs := ho.put hr name hs
  required o name s ho hr hs :=
    (ho.require hr name).put ((Schema.reference_require o name).trans hr) name hs
  part o s ho hr hs := tidy_of_none hr { ho.below with
    allOf := List.forall_mem_append.mpr ⟨ho.below.allOf, List.forall_mem_singleton.mpr hs⟩ }
  absorb o i ho hr hi := by
    have hbelow := ho.below.requireAll i.keywords.required
    exact tidy_of_none ((Schema.reference_requireAll o _).trans hr) { hbelow with
      properties := hbelow.properties.putAll hi.below.properties }
  declare s n hint k d ones anys alls negated hs _ h₁ h₂ h₃ h₄ := hs.declare
    { Schema.below_of_leaf (s := {}) rfl with oneOf := h₁, anyOf := h₂, allOf := h₃, negated := h₄ }
  deprecated d s hd hdep hs hr := hs.deprecated hd hdep hr

/-- After any requests, whether answered or not, neither a stored component nor a
further answer has anything beside a reference, at any depth. -/
theorem references_stand_alone (catalog : Catalog) (depth : Nat) (rs : List Request) (r : Request)
    (hrs : ∀ q ∈ r :: rs, ∀ s, q.given = some s → s.Everywhere (StandsAlone catalog)) :
    (∀ c ∈ (afterRequests catalog depth rs).components,
      c.schema.Everywhere (StandsAlone catalog)) ∧
    ∀ s, ((r.answer (schemaOf catalog depth)).outcome (afterRequests catalog depth rs)).1 = .ok s →
      s.Everywhere (StandsAlone catalog) :=
  Terms.stored_and_answered (T := tidiness catalog) (fun _ => trivial) tidy_refTo
    (fun name _ h => ⟨name, h⟩) depth rs r hrs

section Witness

def titledItem : Request := .merge (Schema.refTo "Item") { title := some "An item" }

theorem references_stand_alone_pages :
    (∀ q ∈ titledItem :: pageRequests, ∀ s, q.given = some s →
      s.Everywhere (StandsAlone pageCatalog)) ∧
    (∀ c ∈ (afterRequests pageCatalog 9 pageRequests).components,
      c.schema.Everywhere (StandsAlone pageCatalog)) ∧
    ∀ s, ((titledItem.answer (schemaOf pageCatalog 9)).outcome
        (afterRequests pageCatalog 9 pageRequests)).1 = .ok s →
      s.Everywhere (StandsAlone pageCatalog) := by
  have hgiven : ∀ q ∈ titledItem :: pageRequests, ∀ s, q.given = some s →
      s.Everywhere (StandsAlone pageCatalog) := by
    intro q hq s hs
    simp only [pageRequests, List.mem_cons, List.not_mem_nil, or_false] at hq
    rcases hq with rfl | rfl | rfl | rfl <;> cases hs
    exact tidy_refTo "Item"
  exact ⟨hgiven, references_stand_alone pageCatalog 9 pageRequests titledItem hgiven⟩

def renamedCatalog : Catalog := Catalog.ofList [
  { name := "Old", shape := .newtype ⟨"New", []⟩, deprecated := true },
  { name := "New", shape := .struct [{ name := "id", type := ⟨"u64", []⟩ }] }]

/-- The component of the deprecated newtype is a reference with the mark beside it. -/
theorem deprecated_newtype_beside_reference :
    ¬ ∀ c ∈ (afterRequests renamedCatalog 9 [.schemaOf ⟨"Old", []⟩]).components,
      c.schema.Everywhere fun u => ∀ r, u.reference = some r → u = { reference := some r } := by
  intro h
  have hold : (afterRequests renamedCatalog 9 [.schemaOf ⟨"Old", []⟩]).components[0]? =
      some ⟨"Old", { Schema.refTo "New" with keywords := { deprecated := some true } }⟩ := rfl
  have halone := (h _ (List.mem_of_getElem? hold)).here _ rfl
  have hmark := congrArg (fun s : Schema => s.keywords.deprecated) halone
  cases hmark

end Witness

end ApiDoc.Inference
