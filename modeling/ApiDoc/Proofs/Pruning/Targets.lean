import Mathlib.Data.List.Nodup
import ApiDoc.Proofs.Json.Values
import ApiDoc.Proofs.Pruning.DropDeprecated

/-!
# What the scan for references finds

In the JSON form of a record the scan goes through one field after the other, and of
a key that is written twice it sees the last value. When two records differ in one
field alone, what it finds in them differs by what it finds in that field.
-/

set_option autoImplicit false

namespace ApiDoc

namespace References

def targetsOfRow (key : String) (j : Json) : List String :=
  if key = "$ref" then ((j.text?).bind target?).toList else targets j

theorem mem_targetsOfRows {rows : List (String × Json)} {name : String} :
    name ∈ targetsOfRows rows ↔ ∃ row ∈ rows, name ∈ targetsOfRow row.1 row.2 := by
  induction rows with
  | nil => simp [targetsOfRows]
  | cons row rows ih =>
    obtain ⟨key, j⟩ := row
    rw [targetsOfRows, List.mem_append, ih]
    simp [targetsOfRow]

/-- In an object the scan looks at the last value of every key. -/
theorem mem_targets_object {rows : List (String × Json)} {name : String} :
    name ∈ targets (Json.object rows).distinct ↔
      ∃ key j, rows.reverse.lookup key = some j ∧ name ∈ targetsOfRow key j.distinct := by
  have hlast : ∀ key, (Ordered.ofRows (Json.distinctRows rows)).get? key =
      (rows.reverse.lookup key).map Json.distinct := by
    intro key
    rw [Ordered.get?_ofRows, Json.distinctRows_eq, ← List.map_reverse]
    exact Ordered.lookup_map Json.distinct rows.reverse key
  rw [Json.distinct, targets, mem_targetsOfRows]
  constructor
  · rintro ⟨⟨key, j⟩, hrow, hname⟩
    have hget := Ordered.get?_of_mem _ hrow
    rw [hlast, Option.map_eq_some_iff] at hget
    obtain ⟨v, hv, rfl⟩ := hget
    exact ⟨key, v, hv, hname⟩
  · rintro ⟨key, j, hj, hname⟩
    refine ⟨(key, j.distinct), Ordered.mem_of_get? _ ?_, hname⟩
    rw [hlast, hj, Option.map_some]

theorem mem_targets_array {js : List Json} {name : String} :
    name ∈ targets (Json.array js).distinct ↔ ∃ j ∈ js, name ∈ targets j.distinct := by
  rw [Json.distinct, targets]
  induction js with
  | nil => simp [Json.distinctItems, targetsOfItems]
  | cons j js ih =>
    rw [Json.distinctItems, targetsOfItems, List.mem_append, ih, List.exists_mem_cons_iff]

/-- In a plain value the scan finds every reference, wherever it stands. -/
theorem mem_targets_of_plain {j : Json} {rows : List (String × Json)} {pointer name : String}
    (hj : j.Plain) (h : j.Contains (.object rows)) (hrow : ("$ref", .text pointer) ∈ rows)
    (hname : target? pointer = some name) : name ∈ targets j.distinct := by
  have hlookup : ∀ {others : List (String × Json)} {row : String × Json},
      (Json.object others).Plain → row ∈ others → others.reverse.lookup row.1 = some row.2 := by
    intro others row hplain hmem
    apply Ordered.lookup_of_mem _ (List.mem_reverse.mpr hmem)
    rw [List.map_reverse, List.nodup_reverse]
    exact (hplain others (.self _)).1
  generalize ho : Json.object rows = o at h
  induction h with
  | self =>
    subst ho
    exact mem_targets_object.mpr ⟨"$ref", .text pointer, hlookup hj hrow,
      by simp [targetsOfRow, Json.distinct, Json.text?, hname]⟩
  | item hmem hk ih =>
    exact mem_targets_array.mpr ⟨_, hmem, ih (hj.within (.item hmem (.self _))) ho⟩
  | @row others row _ hmem hk ih =>
    refine mem_targets_object.mpr ⟨row.1, row.2, hlookup hj hmem, ?_⟩
    have hkey : row.1 ≠ "$ref" := by
      intro hkey
      have hmem : ("$ref", row.2) ∈ others := hkey ▸ hmem
      obtain ⟨text, ht⟩ := (hj others (.self _)).2 row.2 hmem
      rw [ht, ← ho] at hk
      cases hk
    rw [targetsOfRow, if_neg hkey]
    exact ih (hj.within (.row hmem (.self _))) ho

/-- Rows that differ under one key: what is found in the first is found in the second, if
that is so of what stands under the key. -/
theorem targets_change {before after : List (String × Json)} {key name : String}
    {r r' : Option Json} {Q : Prop} (hbefore : key ∉ before.map Prod.fst)
    (hr : ∀ j, r = some j → name ∈ targetsOfRow key j.distinct →
      Q ∨ ∃ j', r' = some j' ∧ name ∈ targetsOfRow key j'.distinct)
    (h : name ∈ targets (Json.object
      (before ++ (r.map fun j => (key, j)).toList ++ after)).distinct) :
    Q ∨ name ∈ targets (Json.object
      (before ++ (r'.map fun j => (key, j)).toList ++ after)).distinct := by
  have hnone : before.reverse.lookup key = none := by
    rw [List.lookup_eq_none_iff]
    intro row hrow
    have hne : key ≠ row.1 := fun e => hbefore (e ▸ List.mem_map_of_mem (List.mem_reverse.mp hrow))
    simpa using hne
  have hlook : ∀ (r : Option Json) k,
      (before ++ (r.map fun j => (key, j)).toList ++ after).reverse.lookup k =
        (after.reverse.lookup k).or (if k = key then r else before.reverse.lookup k) := by
    intro r k
    rw [List.reverse_append, List.reverse_append, List.lookup_append, List.lookup_append]
    by_cases hk : k = key
    · subst hk
      cases r <;> simp [hnone]
    · cases r <;> simp [hk, List.lookup_cons, beq_false_of_ne hk]
  rw [mem_targets_object] at h ⊢
  obtain ⟨k, j, hj, hname⟩ := h
  rw [hlook] at hj
  cases hafter : after.reverse.lookup k with
  | some v =>
    rw [hafter, Option.some_or] at hj
    exact Or.inr ⟨k, j, by rw [hlook, hafter, Option.some_or, hj], hname⟩
  | none =>
    rw [hafter, Option.none_or] at hj
    by_cases hk : k = key
    · subst hk
      rw [if_pos rfl] at hj
      rcases hr j hj hname with hQ | ⟨j', hj', hname'⟩
      · exact Or.inl hQ
      · exact Or.inr ⟨k, j', by rw [hlook, hafter, Option.none_or, if_pos rfl, hj'], hname'⟩
    · rw [if_neg hk] at hj
      exact Or.inr ⟨k, j, by rw [hlook, hafter, Option.none_or, if_neg hk, hj], hname⟩

/-- Records that differ in one field. -/
theorem targets_encode {ρ : Type} (R : Record ρ) {before after : List (Field ρ)} {f : Field ρ}
    (hfields : R.fields = before ++ f :: after) (hname : f.name ∉ before.map (·.name))
    {r r' : ρ} (hbefore : ∀ g ∈ before, g.write r' = g.write r)
    (hafter : ∀ g ∈ after, g.write r' = g.write r) (hrest : R.rest.write r' = R.rest.write r)
    {name : String} {Q : Prop}
    (hf : ∀ j, f.write r = some j → name ∈ targetsOfRow f.name j.distinct →
      Q ∨ ∃ j', f.write r' = some j' ∧ name ∈ targetsOfRow f.name j'.distinct)
    (h : name ∈ targets (R.encode r).distinct) : Q ∨ name ∈ targets (R.encode r').distinct := by
  have hsplit : ∀ r, R.encode r = .object
      ((before.filterMap fun g => (g.write r).map fun j => (g.name, j)) ++
        ((f.write r).map fun j => (f.name, j)).toList ++
        ((after.filterMap fun g => (g.write r).map fun j => (g.name, j)) ++ R.rest.write r)) := by
    intro r
    rw [Record.encode, hfields, List.filterMap_append, List.filterMap_cons]
    cases f.write r <;> simp
  have hkey : f.name ∉ (before.filterMap fun g => (g.write r).map fun j => (g.name, j)).map
      Prod.fst := by
    intro hmem
    obtain ⟨row, hrow, he⟩ := List.mem_map.mp hmem
    obtain ⟨g, hg, hw⟩ := List.mem_filterMap.mp hrow
    obtain ⟨j, -, rfl⟩ := Option.map_eq_some_iff.mp hw
    exact hname (he ▸ List.mem_map_of_mem hg)
  have hsame : ∀ gs : List (Field ρ), (∀ g ∈ gs, g.write r' = g.write r) →
      (gs.filterMap fun g => (g.write r').map fun j => (g.name, j)) =
        gs.filterMap fun g => (g.write r).map fun j => (g.name, j) :=
    fun gs hgs => List.filterMap_congr fun g hg => by rw [hgs g hg]
  rw [hsplit] at h ⊢
  rw [hsame before hbefore, hsame after hafter, hrest]
  exact targets_change hkey hf h

/-! ### Some of the component schemas -/

/-- A schema is written as an object, which no key hides. -/
theorem targetsOfRow_schema {key name : String} {s : Schema}
    (h : name ∈ targetsOfRow key s.toJson.distinct) : name ∈ targets s.toJson.distinct := by
  obtain ⟨n, hn, -⟩ := s.height_eq_succ
  unfold targetsOfRow at h
  split at h
  · rw [Schema.toJson, hn] at h
    cases h
  · exact h

variable {schemas : Ordered Schema} {keep rest : String → Schema → Bool}

/-- Of the component schemas that were kept, those that belong to the rest are scanned
with the rest. -/
theorem targets_schemas {name : String} {Q : Prop}
    (hkeep : ∀ key s, schemas.get? key = some s → keep key s = true → rest key s = false →
      name ∈ targets s.toJson.distinct → Q)
    (h : name ∈ targets ((Codec.table Schema.codec).encode (schemas.filter keep)).distinct) :
    Q ∨ (schemas.filter rest).isEmpty = false ∧
      name ∈ targets ((Codec.table Schema.codec).encode (schemas.filter rest)).distinct := by
  obtain ⟨key, j, hj, hname⟩ := mem_targets_object.mp h
  obtain ⟨row, hrow, hkj⟩ := List.mem_map.mp (List.mem_reverse.mp (Ordered.mem_of_lookup hj))
  cases hkj
  obtain ⟨hmem, hkept⟩ := Ordered.mem_filter.mp hrow
  have hget : schemas.get? row.1 = some row.2 := schemas.get?_of_mem hmem
  cases hr : rest row.1 row.2 with
  | false => exact Or.inl (hkeep row.1 row.2 hget hkept hr (targetsOfRow_schema hname))
  | true =>
    have hin : row ∈ (schemas.filter rest).entries := Ordered.mem_filter.mpr ⟨hmem, hr⟩
    have hempty : (schemas.filter rest).isEmpty = false := by
      cases hl : (schemas.filter rest).entries with
      | nil => rw [hl] at hin; cases hin
      | cons _ _ => simp [Ordered.isEmpty, hl]
    have hlast : ((schemas.filter rest).entries.map
        fun row => (row.1, Schema.codec.encode row.2)).reverse.lookup row.1 =
          some (Schema.codec.encode row.2) := by
      apply Ordered.lookup_of_mem
      · rw [List.map_reverse, List.nodup_reverse, List.map_map]
        exact (schemas.filter rest).distinct_entries
      · exact List.mem_reverse.mpr
          (List.mem_map_of_mem (f := fun row => (row.1, Schema.codec.encode row.2)) hin)
    exact Or.inr ⟨hempty, mem_targets_object.mpr ⟨row.1, _, hlast, hname⟩⟩

theorem targets_components (c : Components) {name : String} {Q : Prop}
    (hkeep : ∀ key s, c.schemas.get? key = some s → keep key s = true → rest key s = false →
      name ∈ targets s.toJson.distinct → Q)
    (h : name ∈ targets (Components.form.encode
      { c with schemas := c.schemas.filter keep }).distinct) :
    Q ∨ name ∈ targets (Components.form.encode
      { c with schemas := c.schemas.filter rest }).distinct := by
  have hfields : Components.form.fields = [] ++ ⟨"schemas", .table Schema.codec, (·.schemas),
      fun r v => { r with schemas := v }⟩ :: Components.form.fields.tail := rfl
  have hafter : ∀ g ∈ Components.form.fields.tail,
      g.write { c with schemas := c.schemas.filter rest } =
        g.write { c with schemas := c.schemas.filter keep } := by
    simp [Components.form]
  have hrest : Components.form.rest.write { c with schemas := c.schemas.filter rest } =
      Components.form.rest.write { c with schemas := c.schemas.filter keep } := rfl
  apply targets_encode Components.form hfields List.not_mem_nil (List.forall_mem_nil _) hafter hrest
    _ h
  intro j hj hname
  simp only [Field.write_mk, Cell.write_table] at hj hname ⊢
  split at hj
  · cases hj
  · cases hj
    rcases targets_schemas hkeep hname with hQ | ⟨hempty, hfound⟩
    · exact Or.inl hQ
    · exact Or.inr ⟨(Codec.table Schema.codec).encode (c.schemas.filter rest),
        by rw [hempty]; rfl, hfound⟩

theorem targets_withSchemas (d : OpenApi) {name : String} {Q : Prop}
    (hkeep : ∀ key s, d.componentsOrNew.schemas.get? key = some s → keep key s = true →
      rest key s = false → name ∈ targets s.toJson.distinct → Q)
    (h : name ∈ targets (d.withSchemas keep).toJson.distinct) :
    Q ∨ name ∈ targets (d.withSchemas rest).toJson.distinct := by
  have hfields : OpenApi.form.fields = OpenApi.form.fields.take 4 ++
      ⟨"components", .optional Components.codec, (·.components),
        fun r v => { r with components := v }⟩ :: OpenApi.form.fields.drop 5 := rfl
  have hname : "components" ∉ (OpenApi.form.fields.take 4).map (·.name) := by
    simp [OpenApi.form]
  have hbefore : ∀ g ∈ OpenApi.form.fields.take 4,
      g.write (d.withSchemas rest) = g.write (d.withSchemas keep) := by
    simp [OpenApi.form, OpenApi.withSchemas]
  have hafter : ∀ g ∈ OpenApi.form.fields.drop 5,
      g.write (d.withSchemas rest) = g.write (d.withSchemas keep) := by
    simp [OpenApi.form, OpenApi.withSchemas]
  have hrest : OpenApi.form.rest.write (d.withSchemas rest) =
      OpenApi.form.rest.write (d.withSchemas keep) := rfl
  apply targets_encode OpenApi.form hfields hname hbefore hafter hrest _ h
  intro j hj hfound
  cases hc : d.components with
  | none => simp [OpenApi.withSchemas, hc] at hj
  | some c =>
    simp only [Field.write_mk, Cell.write_optional, OpenApi.withSchemas, hc, Option.map_some,
      Option.some.injEq] at hj ⊢
    subst hj
    simp only [OpenApi.componentsOrNew, hc, Option.getD_some] at hkeep
    rcases targets_components c hkeep hfound with hQ | hrest
    · exact Or.inl hQ
    · exact Or.inr ⟨_, rfl, hrest⟩

end References

end ApiDoc
