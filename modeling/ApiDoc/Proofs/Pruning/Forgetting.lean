import ApiDoc.Proofs.Pruning.FixedPoint

/-!
# Requirements that deprecated properties take along

A schema of which deprecated properties are dropped no longer requires them. It
forgets, with them, all that it requires without a property of its own.
-/

set_option autoImplicit false

namespace ApiDoc

namespace Schema

open Policy

/-- The name is that of a property, and of none that stays when the deprecated ones go. -/
def loses (s : Schema) (name : String) : Bool :=
  s.properties.contains name && !(keptProperties s).contains name

/-- The name is lost, or it is that of no property while others are lost. -/
def forgets (s : Schema) (name : String) : Bool :=
  s.loses name || (!s.properties.contains name && s.properties.values.any (·.isDeprecated))

end Schema

namespace Row

def demand (required : Schema → List String) (row : Row) : Place × Option (List String) :=
  (row.1, row.2.schema?.map required)

def isCurrent (row : Row) : Bool :=
  match row.2 with
  | .operation o => o.deprecated != some true
  | _ => !row.isOldProperty

end Row

namespace Policy

open Row

theorem contains_keptProperties {s : Schema} {name : String}
    (h : (keptProperties s).contains name = true) : s.properties.contains name = true := by
  obtain ⟨property, hproperty⟩ := Option.isSome_iff_exists.mp h
  have hmem := (Ordered.mem_filter.mp (Ordered.mem_of_get? _ hproperty)).1
  exact (Ordered.contains_iff _ _).mpr (Ordered.mem_keys_of_mem hmem)

theorem required_dropDeprecatedProperties (s : Schema) :
    (dropDeprecatedProperties s).keywords.required =
      s.keywords.required.filter fun name => !s.forgets name := by
  have hcurrent : AllCurrent s ↔ s.properties.values.any (·.isDeprecated) = false := by
    simp [AllCurrent, Ordered.All, Ordered.values]
  by_cases h : AllCurrent s
  · rw [dropDeprecatedProperties_self h, List.filter_eq_self.mpr]
    intro name _
    simp [Schema.forgets, Schema.loses, keptProperties_self h, hcurrent.mp h]
  · have hsome := Bool.of_not_eq_false (mt hcurrent.mpr h)
    rw [dropDeprecatedProperties_dropped h]
    apply List.filter_congr
    intro name _
    have hkept := @contains_keptProperties s name
    cases hname : (keptProperties s).contains name with
    | true => simp [Schema.forgets, Schema.loses, hname, hkept hname]
    | false => simp [Schema.forgets, Schema.loses, hname, hsome]

/-! Rows that are current are left, each as the walk makes it. -/

def leftRow (row : Row) : Row := (row.1, (dropDeprecated.leaves row.2).getD row.2)

theorem isCurrent_eq (row : Row) :
    row.isCurrent = ((dropDeprecated.leaves row.2).isSome && !row.isOldProperty) := by
  rw [leaves_eq dropDeprecated_reduces.modest, Option.isSome_map, isCurrent, isOldProperty]
  cases row.2 with
  | operation o =>
    by_cases ho : o.deprecated = some true
    · simp [ask, dropDeprecated, ho, Id.run]
    · simp [ask, dropDeprecated, ho, Id.run, Node.schema?]
  | schema s => simp [ask, dropDeprecated, Id.run]
  | _ => rfl

theorem isOldProperty_ofContent (c : Content) : ∀ row ∈ ofContent c, row.isOldProperty = false := by
  simp only [ofContent, ofMedia, ofSlot, ofList, ofTable, under, List.forall_mem_flatMap,
    List.forall_mem_map, List.forall_mem_append]
  exact fun _ _ => ⟨fun _ _ => rfl, fun _ _ => rfl⟩

/-- Only schemas have properties. -/
theorem isOldProperty_rows {n : Node} (hn : n.schema? = none) :
    ∀ row ∈ n.rows, row.isOldProperty = false := by
  cases n with
  | schema s => cases hn
  | sample _ | securityScheme _ | server _ | tag _ | requirement _ => exact List.forall_mem_nil _
  | response _ | parameter _ | requestBody _ | header _ =>
    simp only [Node.rows, ofSlot, ofList, ofTable, List.forall_mem_append, List.forall_mem_map]
    repeat' apply And.intro
    any_goals exact isOldProperty_ofContent _
    all_goals
      intros
      rfl
  | link _ | callback _ | pathItem _ _ | operation _ =>
    simp only [Node.rows, ofSlot, ofList, ofTable, ofResponses, List.forall_mem_append,
      List.forall_mem_flatMap, List.forall_mem_map]
    repeat' apply And.intro
    all_goals
      intros
      simp [isOldProperty, Node.schema?]

theorem isOldProperty_documentRows (d : OpenApi) : ∀ row ∈ d.rows, row.isOldProperty = false := by
  simp only [OpenApi.rows, ofComponents, under, ofList, ofTable, List.forall_mem_append,
    List.forall_mem_flatMap, List.forall_mem_map]
  refine ⟨⟨⟨⟨?_, ?_⟩, ?_⟩, ?_⟩, ?_⟩
  · intro c _
    repeat' apply And.intro
    all_goals
      intros
      rfl
  all_goals
    intros
    rfl

/-- The answer holds everything but the deprecated properties. -/
theorem rows_ask {n a : Node} (h : dropDeprecated.ask n = some a) :
    a.rows = n.rows.filter fun row => !row.isOldProperty := by
  cases n with
  | schema s =>
    cases h
    exact rows_dropDeprecatedProperties s
  | operation o =>
    obtain ⟨-, rfl⟩ := ask_operation_dropDeprecated.mp h
    exact (filter_of_isOldProperty (isOldProperty_rows rfl)).symm
  | _ =>
    cases h
    exact (filter_of_isOldProperty (isOldProperty_rows rfl)).symm

theorem sift_current (rows : List Row) :
    sift dropDeprecated.leaves (rows.filter fun row => !row.isOldProperty) =
      (rows.filter Row.isCurrent).map leftRow := by
  rw [sift_eq, List.filter_filter]
  simp only [← isCurrent_eq]
  rfl

theorem rows_leftRow {row : Row} (h : row.isCurrent = true) :
    (leftRow row).2.rows = (row.2.rows.filter Row.isCurrent).map leftRow := by
  rw [isCurrent_eq, Bool.and_eq_true] at h
  obtain ⟨b, hb⟩ := Option.isSome_iff_exists.mp h.1
  have hleft : (leftRow row).2 = b := by rw [leftRow, hb, Option.getD_some]
  obtain ⟨a, ha, rfl⟩ := (leaves_eq_some_iff dropDeprecated_reduces.modest).mp hb
  rw [hleft, rows_inside, rows_ask ha, sift_current]

theorem schema?_getD_map {α : Type} {w : α → Node} (h : ∀ a, (w a).schema? = none) (x : Option α)
    (a : α) : ((x.map w).getD (w a)).schema? = none := by
  cases x <;> exact h _

theorem schema?_leftRow (row : Row) : (leftRow row).2.schema? = row.2.schema?.map fun s =>
    (subschemas dropDeprecated.pruneSchema (dropDeprecatedProperties s)).run := by
  simp only [leftRow]
  cases row.2 with
  | schema s =>
    rw [leaves, run_pruneSchema_dropDeprecated]
    rfl
  | _ =>
    simp only [leaves]
    exact schema?_getD_map (by intro; rfl) _ _

theorem demand_leftRow (row : Row) :
    (leftRow row).demand (·.keywords.required) =
      row.demand fun s => s.keywords.required.filter fun name => !s.forgets name := by
  simp only [demand, schema?_leftRow, Option.map_map, ← required_dropDeprecatedProperties]
  rfl

theorem keepsRow_leftRow {d : OpenApi} (row : Row) :
    OpenApi.keepsRow (References.keepsSchema d) (leftRow row) =
      OpenApi.keepsRow (References.keepsSchema d) row := by
  have hkeeps : ∀ name s, References.keepsSchema d name
      (subschemas dropDeprecated.pruneSchema (dropDeprecatedProperties s)).run =
        References.keepsSchema d name s := by
    intro name s
    rw [References.keepsSchema, References.keepsSchema]
    congr 2
    exact isDeprecated_dropDeprecatedProperties s
  simp only [OpenApi.keepsRow, schema?_leftRow, Option.all_map, hkeeps]
  rfl

theorem rows_prune_dropDeprecated (d : OpenApi) : (d.prune dropDeprecated).rows =
    ((d.rows.filter (OpenApi.keepsRow (References.keepsSchema (dropDeprecated.insideDocument d)))
      ).filter Row.isCurrent).map leftRow := by
  have hinside : (dropDeprecated.insideDocument d).rows =
      (d.rows.filter Row.isCurrent).map leftRow := by
    rw [rows_insideDocument, ← sift_current,
      filter_of_isOldProperty (isOldProperty_documentRows d)]
  rw [prune_dropDeprecated_eq, References.dropDeprecatedSchemas_eq, OpenApi.rows_withSchemas_eq,
    hinside, List.filter_map, List.filter_filter, List.filter_filter]
  simp only [Function.comp_apply, keepsRow_leftRow, Bool.and_comm]

end Policy

open Policy in
/-- The ways down that are left: on none of them stands a component that nothing needs, a
deprecated property or a deprecated operation. -/
def OpenApi.currentTrails (d : OpenApi) (depth : Nat) : List (List Row) :=
  (trails depth (d.rows.filter (OpenApi.keepsRow
    (References.keepsSchema (dropDeprecated.insideDocument d))))).filter (List.all · Row.isCurrent)

/-- On every way down, the schemas of the result require in the same order what they did,
but for the names that they forget. -/
theorem requirements_left (d : OpenApi) (depth : Nat) :
    (trails depth (d.prune .dropDeprecated).rows).map
        (List.map (Row.demand (·.keywords.required))) =
      (d.currentTrails depth).map
        (List.map (Row.demand fun s =>
          s.keywords.required.filter fun name => !s.forgets name)) := by
  have hdemand : Row.demand (·.keywords.required) ∘ Policy.leftRow =
      Row.demand fun s => s.keywords.required.filter fun name => !s.forgets name :=
    funext Policy.demand_leftRow
  rw [Policy.rows_prune_dropDeprecated, trails_filter_map fun _ => Policy.rows_leftRow,
    List.map_map, List.map_comp_map, hdemand, OpenApi.currentTrails]

def itemDocument : OpenApi :=
  { components := some { schemas := .ofRows [
      ("Base", { properties := .ofRows [("id", {})] }),
      ("Item", {
        allOf := [{ reference := some "#/components/schemas/Base" }]
        properties := .ofRows [
          ("legacy", { keywords := { deprecated := some true } }), ("size", {})]
        keywords := { required := ["id", "legacy", "size"] } })] } }

/-- The identifier is not lost, and forgotten with the deprecated property all the same. -/
theorem requirement_forgotten :
    ¬ ∀ (d : OpenApi) (depth : Nat),
      (trails depth (d.prune .dropDeprecated).rows).map
          (List.map (Row.demand (·.keywords.required))) =
        (d.currentTrails depth).map
          (List.map (Row.demand fun s => s.keywords.required.filter fun name => !s.loses name)) :=
  fun h => absurd (h itemDocument 1) (by decide +kernel)

end ApiDoc
