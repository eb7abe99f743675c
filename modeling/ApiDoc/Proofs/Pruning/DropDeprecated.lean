import ApiDoc.Proofs.Pruning.Thinning
import ApiDoc.Pruning.Builtin

/-!
# Deprecated nodes that are dropped

Asked about a node, the policy leaves out deprecated properties or the node itself, so
that every node of the result was made from one of the document.
-/

set_option autoImplicit false

namespace ApiDoc

theorem Schema.heightRows_filter_le (keep : String → Schema → Bool)
    (properties : Ordered Schema) :
    heightRows (properties.filter keep).rows ≤ heightRows properties.rows :=
  heightRows_le.mpr fun row hrow => heightRows_le.mp le_rfl row (Ordered.mem_filter.mp hrow).1

theorem Schema.height_filter_le (s : Schema) (k : Keywords) (keep : String → Schema → Bool) :
    ({ s with keywords := k, properties := s.properties.filter keep } : Schema).height ≤
      s.height := by
  obtain ⟨reference, keywords, properties, items, negated, allOf, anyOf, oneOf, additional⟩ := s
  have := heightRows_filter_le keep properties
  rw [height.eq_def, height.eq_def ⟨reference, keywords, properties, _, _, _, _, _, _⟩]
  exact Nat.succ_le_succ (max_le_max this le_rfl)

theorem Schema.thins_keyword {f : Field Keywords} {s' s : Schema}
    (h : f.Thins s'.keywords s.keywords) : (Schema.keyword f).Thins s' s := h

namespace Row

def isOldProperty (row : Row) : Bool :=
  row.1.head? == some "properties" && row.2.schema?.any (·.isDeprecated)

theorem filter_of_isOldProperty {rows : List Row} (h : ∀ row ∈ rows, row.isOldProperty = false) :
    rows.filter (fun row => !row.isOldProperty) = rows := by
  rw [List.filter_eq_self]
  intro row hrow
  rw [h row hrow]
  rfl

end Row

open Row

namespace Policy

theorem ask_dropDeprecated {n a : Node} (h : dropDeprecated.ask n = some a) :
    a = n ∨ ∃ s, n = .schema s ∧ a = .schema (dropDeprecatedProperties s) := by
  cases n with
  | schema s =>
    cases h
    exact Or.inr ⟨s, rfl, rfl⟩
  | operation o =>
    simp only [ask, dropDeprecated] at h
    split at h
    · cases h
    · cases h
      exact Or.inl rfl
  | _ =>
    cases h
    exact Or.inl rfl

def keptProperties (s : Schema) : Ordered Schema :=
  s.properties.filter fun _ property => !property.isDeprecated

def AllCurrent (s : Schema) : Prop := s.properties.All fun property => property.isDeprecated = false

theorem keptProperties_self {s : Schema} (h : AllCurrent s) : keptProperties s = s.properties := by
  have hrows : s.properties.entries.filter (fun row => !row.2.isDeprecated) =
      s.properties.entries := List.filter_eq_self.mpr fun row hrow => by rw [h row hrow]; rfl
  exact Ordered.ext ((Ordered.entries_filter _ _).trans hrows)

theorem size_keptProperties {s : Schema} :
    (keptProperties s).size = s.properties.size ↔ AllCurrent s := by
  simp [keptProperties, Ordered.size, AllCurrent, Ordered.All,
    List.length_filter_eq_length_iff]

theorem dropDeprecatedProperties_self {s : Schema} (h : AllCurrent s) :
    dropDeprecatedProperties s = s := if_pos (size_keptProperties.mpr h)

theorem dropDeprecatedProperties_dropped {s : Schema} (h : ¬ AllCurrent s) :
    dropDeprecatedProperties s = { s with
      properties := keptProperties s
      keywords := { s.keywords with
        required := s.keywords.required.filter (keptProperties s).contains } } :=
  if_neg (mt size_keptProperties.mp h)

theorem dropDeprecatedProperties_eq (s : Schema) : dropDeprecatedProperties s = s ∨
    dropDeprecatedProperties s = { s with
      properties := keptProperties s
      keywords := { s.keywords with
        required := s.keywords.required.filter (keptProperties s).contains } } := by
  by_cases h : AllCurrent s
  · exact Or.inl (dropDeprecatedProperties_self h)
  · exact Or.inr (dropDeprecatedProperties_dropped h)

/-- Whether or not something is dropped, the properties that are left are those to keep. -/
theorem properties_dropDeprecatedProperties (s : Schema) :
    (dropDeprecatedProperties s).properties = keptProperties s := by
  by_cases h : AllCurrent s
  · rw [dropDeprecatedProperties_self h, keptProperties_self h]
  · rw [dropDeprecatedProperties_dropped h]

/-- Besides the properties only keywords can change. -/
theorem dropDeprecatedProperties_fields (s : Schema) : dropDeprecatedProperties s = { s with
    properties := keptProperties s
    keywords := (dropDeprecatedProperties s).keywords } := by
  by_cases h : AllCurrent s
  · rw [keptProperties_self h, dropDeprecatedProperties_self h]
    cases s
    rfl
  · rw [dropDeprecatedProperties_dropped h]

theorem isDeprecated_dropDeprecatedProperties (s : Schema) :
    (dropDeprecatedProperties s).isDeprecated = s.isDeprecated := by
  rcases dropDeprecatedProperties_eq s with h | h <;> rw [h]
  rfl

theorem height_dropDeprecatedProperties (s : Schema) :
    (dropDeprecatedProperties s).height ≤ s.height := by
  rcases dropDeprecatedProperties_eq s with h | h
  · rw [h]
  · rw [h]
    exact Schema.height_filter_le s _ _

/-- The deprecated properties are gone, and nothing else that stands below the schema. -/
theorem rows_dropDeprecatedProperties (s : Schema) :
    (Node.schema (dropDeprecatedProperties s)).rows =
      (Node.schema s).rows.filter fun row => !row.isOldProperty := by
  have hproperties : ofTable "properties" Node.schema (keptProperties s) =
      (ofTable "properties" .schema s.properties).filter fun row => !row.isOldProperty := by
    simp only [ofTable, keptProperties, Ordered.entries_filter, List.filter_map,
      Function.comp_def]
    rfl
  have hrest : ∀ (field : String) (cs : List Schema), field ≠ "properties" →
      (ofList field Node.schema cs).filter (fun row => !row.isOldProperty) =
        ofList field .schema cs := by
    intro field cs hfield
    apply filter_of_isOldProperty
    intro row hrow
    obtain ⟨c, -, rfl⟩ := mem_ofList.mp hrow
    simp [isOldProperty, hfield]
  rw [dropDeprecatedProperties_fields]
  simp (disch := decide) only [Node.rows, ofSlot, List.filter_append, hproperties, hrest]

theorem thinner_dropDeprecatedProperties (s : Schema) :
    (dropDeprecatedProperties s).toJson.Thinner s.toJson := by
  rcases dropDeprecatedProperties_eq s with h | h
  · rw [h]
    exact .self _
  · rw [h, Schema.toJson_eq, Schema.toJson_eq s]
    have hkept : keptProperties s = s.properties.filter fun _ c => !c.isDeprecated := rfl
    apply Record.thinner_encode
    · simp only [Schema.form, Keywords.headings, Keywords.bounds, Keywords.notes,
        Schema.subschemas, List.forall_mem_append, List.forall_mem_map, List.forall_mem_cons]
      repeat' apply And.intro
      any_goals exact Field.thins_same rfl
      any_goals exact List.forall_mem_nil _
      · exact Schema.thins_keyword (Field.thins_filterList rfl)
      · exact Field.thins_filter hkept
    · exact .self _

theorem dropDeprecated_reduces : dropDeprecated.Reduces := by
  constructor
  · intro n a h
    rcases ask_dropDeprecated h with rfl | ⟨s, rfl, rfl⟩
    · exact le_rfl
    · exact height_dropDeprecatedProperties s
  · intro n a h
    rcases ask_dropDeprecated h with rfl | ⟨s, rfl, rfl⟩
    · exact List.Subset.refl _
    · rw [rows_dropDeprecatedProperties]
      exact fun _ hrow => List.mem_of_mem_filter hrow
  · intro n a h
    rcases ask_dropDeprecated h with rfl | ⟨s, rfl, rfl⟩
    · exact List.Subset.refl _
    · exact List.nil_subset _
  · intro n a h
    rcases ask_dropDeprecated h with rfl | ⟨s, rfl, rfl⟩
    · exact .self _
    · exact thinner_dropDeprecatedProperties s

end Policy

/-! ### Component schemas that are dropped -/

namespace OpenApi

def withSchemas (d : OpenApi) (keep : String → Schema → Bool) : OpenApi :=
  { d with components := d.components.map fun c => { c with schemas := c.schemas.filter keep } }

def keepsRow (keep : String → Schema → Bool) (row : Row) : Bool :=
  row.2.schema?.all (keep (row.1.getLastD ""))

variable (d : OpenApi) (keep : String → Schema → Bool)

theorem schemas_withSchemas :
    (d.withSchemas keep).componentsOrNew.schemas = d.componentsOrNew.schemas.filter keep := by
  simp only [withSchemas, componentsOrNew]
  cases d.components <;> rfl

theorem withSchemas_withSchemas (also : String → Schema → Bool) :
    (d.withSchemas keep).withSchemas also =
      d.withSchemas fun name s => keep name s && also name s := by
  simp only [withSchemas, Option.map_map, Function.comp_def, Ordered.filter_filter]

/-- Of the rows of a document only the component schemas are schemas. -/
theorem rows_withSchemas_eq : (d.withSchemas keep).rows = d.rows.filter (keepsRow keep) := by
  have hcomponents : (d.withSchemas keep).components.toList.flatMap
        (fun c => under ["components"] (ofComponents c)) =
      (d.components.toList.flatMap fun c => under ["components"] (ofComponents c)).filter
        (keepsRow keep) := by
    cases hc : d.components with
    | none => simp [withSchemas, hc]
    | some c =>
      simp [withSchemas, hc, under, ofComponents, ofTable, List.filter_map, Function.comp_def,
        keepsRow, Node.schema?]
  simp only [rows, hcomponents, List.filter_append]
  simp [withSchemas, ofList, List.filter_map, Function.comp_def, keepsRow, Node.schema?]

theorem rows_withSchemas : (d.withSchemas keep).rows ⊆ d.rows := by
  rw [rows_withSchemas_eq]
  exact fun _ hrow => List.mem_of_mem_filter hrow

theorem thinner_withSchemas : (d.withSchemas keep).toJson.Thinner d.toJson := by
  have hcomponents : (d.withSchemas keep).components =
      d.components.map fun c => { c with schemas := c.schemas.filter keep } := rfl
  apply Record.thinner_encode
  · simp only [OpenApi.form, List.forall_mem_cons]
    repeat' apply And.intro
    any_goals exact Field.thins_same rfl
    · apply Field.thins_map hcomponents
      intro c _
      apply Record.thinner_encode
      · simp only [Components.form, List.forall_mem_cons]
        repeat' apply And.intro
        any_goals exact Field.thins_same rfl
        · exact Field.thins_filter rfl
        · exact List.forall_mem_nil _
      · exact .self _
    · exact List.forall_mem_nil _
  · exact .self _

end OpenApi

/-! ### The result -/

namespace Policy

theorem prune_dropDeprecated (d : OpenApi) : ∃ keep,
    d.prune dropDeprecated = (dropDeprecated.insideDocument d).withSchemas keep :=
  ⟨_, run_prune dropDeprecated d⟩

/-- The result is the document with parts left out. -/
theorem thinner_prune_dropDeprecated (d : OpenApi) :
    (d.prune dropDeprecated).toJson.Thinner d.toJson := by
  obtain ⟨keep, h⟩ := prune_dropDeprecated d
  rw [h]
  exact (OpenApi.thinner_withSchemas _ keep).trans (dropDeprecated_reduces.thinner_insideDocument d)

theorem reference_dropDeprecatedProperties (s : Schema) :
    (dropDeprecatedProperties s).reference = s.reference := by
  rcases dropDeprecatedProperties_eq s with h | h <;> rw [h]

/-- A schema of the result was made from one with the same reference. -/
theorem Comes.reference {s : Schema} {n : Node} (h : dropDeprecated.Comes (.schema s) n) :
    ∃ t, n = .schema t ∧ s.reference = t.reference := by
  rcases h with rfl | ⟨a, ha, he⟩
  · exact ⟨s, rfl, rfl⟩
  · rcases ask_dropDeprecated ha with rfl | ⟨t, rfl, rfl⟩
    · cases a <;> cases he
      exact ⟨_, rfl, rfl⟩
    · cases he
      exact ⟨t, rfl, reference_dropDeprecatedProperties t⟩

/-- Every reference of the result is one of the document. -/
theorem refers_of_prune_dropDeprecated {d : OpenApi} {pointer : String}
    (h : (d.prune dropDeprecated).Refers pointer) : d.Refers pointer := by
  obtain ⟨s, ⟨row, hrow, hs⟩, hpointer⟩ := h
  obtain ⟨keep, hresult⟩ := prune_dropDeprecated d
  rw [hresult] at hrow
  have hinside : (dropDeprecated.insideDocument d).Includes (.schema s) :=
    ⟨row, OpenApi.rows_withSchemas _ keep hrow, hs⟩
  obtain ⟨n, hn, hcomes⟩ := dropDeprecated_reduces.includes_insideDocument hinside
  obtain ⟨t, rfl, hreference⟩ := hcomes.reference
  exact ⟨t, hn, hreference ▸ hpointer⟩

end Policy

end ApiDoc
