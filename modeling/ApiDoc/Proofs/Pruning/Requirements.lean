import ApiDoc.Proofs.Pruning.Survivors
import ApiDoc.Proofs.Pruning.Thinning

/-!
# Requirements that lose their property

A policy that removes the schema of a property removes the property and leaves the
requirement. Schemas that required properties of their own still do so in the result
just when no such schema is removed.
-/

set_option autoImplicit false

namespace ApiDoc

namespace Policy

theorem schema_of_inside {p : Policy Id} {n : Node} {t : Schema} (h : p.inside n = .schema t) :
    ∃ s, n = .schema s ∧ t = (subschemas p.pruneSchema s).run := by
  cases n with
  | schema s =>
    cases h
    exact ⟨s, rfl, rfl⟩
  | _ => cases h

/-! ### Policies that remove schemas -/

section Sifting

variable {p : Policy Id} (hp : p.Sifts)

def Retains (p : Policy Id) (s : Schema) : Prop :=
  ∀ name ∈ s.keywords.required, ∃ property,
    (name, property) ∈ s.properties.entries ∧ p.keeps (.schema property) = true

include hp

theorem Sifts.mem_keys_table {t : Ordered Schema} {name : String} :
    name ∈ (table p.pruneSchema t).run.keys ↔ ∃ property,
      (name, property) ∈ t.entries ∧ p.keeps (.schema property) = true := by
  have hkeeps : ∀ s, p.keeps (.schema s) = (p.pruneSchema s).run.isSome := by
    intro s
    have hleaves := congrArg Option.isSome (leaves_eq hp.modest (.schema s))
    rw [leaves, Option.isSome_map, Option.isSome_map] at hleaves
    exact hleaves.symm
  simp only [hkeeps]
  constructor
  · intro h
    obtain ⟨row, hrow, rfl⟩ := Ordered.exists_mem_of_mem_keys h
    obtain ⟨old, hold, t, ht, rfl⟩ := mem_run_table.mp hrow
    exact ⟨old.2, hold, Option.isSome_of_eq_some ht⟩
  · rintro ⟨property, hproperty, hsome⟩
    obtain ⟨t, ht⟩ := Option.isSome_iff_exists.mp hsome
    exact Ordered.mem_keys_of_mem (mem_run_table.mpr ⟨_, hproperty, t, ht, rfl⟩)

/-- The walk leaves every requirement as it is. -/
theorem Sifts.requiresOwn_inside (s : Schema) :
    (subschemas p.pruneSchema s).run.RequiresOwn ↔ p.Retains s := by
  rw [run_subschemas, Schema.RequiresOwn]
  simp only [hp.mem_keys_table]
  rfl

theorem Sifts.includes_result {d : OpenApi} {m : Node} (h : (p.prune d).run.Includes m) :
    (p.prune d).run.Holds m ∨ d.Includes m := by
  obtain ⟨row, hrow, hm⟩ := h
  rcases hm.left with hm | ⟨a, ha, part, hpart, hm⟩
  · exact Or.inl ⟨row, hrow, hm⟩
  · -- What was passed by is as it was.
    obtain ⟨n, hn, rfl⟩ := hp.holds_result.mp ⟨row, hrow, ha⟩
    obtain ⟨top, htop, hholds⟩ := hn.holds
    rw [aside_inside] at hpart
    exact Or.inr ⟨top, htop,
      hholds.includes.trans (.child (List.mem_append_right _ hpart) hm)⟩

end Sifting

/-- If every schema required only properties of its own, then so it is in the result just
when no schema that survives loses a property that it requires. -/
theorem requirements_consistent_iff (p : Policy Id) (hp : p.Sifts) (d : OpenApi)
    (h : ∀ s, d.Includes (.schema s) → s.RequiresOwn) :
    (∀ s, (p.prune d).run.Includes (.schema s) → s.RequiresOwn) ↔
      ∀ s, p.Survives d (.schema s) → p.Retains s := by
  constructor
  · intro hresult s hs
    have hholds : (p.prune d).run.Holds (.schema (subschemas p.pruneSchema s).run) :=
      hp.holds_result.mpr ⟨.schema s, hs, rfl⟩
    obtain ⟨top, htop, hbelow⟩ := hholds
    exact (hp.requiresOwn_inside s).mp (hresult _ ⟨top, htop, hbelow.includes⟩)
  · intro hretains s hs
    rcases hp.includes_result hs with hs | hs
    · obtain ⟨n, hn, he⟩ := hp.holds_result.mp hs
      obtain ⟨t, rfl, rfl⟩ := schema_of_inside he
      exact (hp.requiresOwn_inside t).mpr (hretains t hn)
    · exact h s hs

section Witness

def current : Policy Id :=
  { keepAll with schema := fun s => if s.isDeprecated then none else some s }

theorem current_sifts : current.Sifts where
  document _ := rfl
  answer n a h := by
    cases n with
    | schema s =>
      by_cases hs : s.isDeprecated = true
      · simp [ask, current, hs, Id.run] at h
      · simp [ask, current, hs, Id.run] at h
        exact h.symm
    | _ =>
      cases h
      rfl

def former : Schema := { keywords := { deprecated := some true } }

def person (required : List String) : Schema :=
  { properties := .ofRows [("name", {}), ("title", former)], keywords := { required := required } }

def personDocument (required : List String) : OpenApi :=
  { components := some { schemas := .ofRows [("Person", person required)] } }

theorem schemas_personDocument {required : List String} {s : Schema}
    (h : (personDocument required).Includes (.schema s)) :
    s = person required ∨ s = {} ∨ s = former := by
  have hleaf : ∀ {t : Schema}, (Node.schema t).rows = [] →
      (Node.schema t).Includes (.schema s) → s = t := by
    intro t ht hs
    cases hs with
    | self => rfl
    | child hr _ =>
      rw [ht] at hr
      cases hr
  have hperson : (Node.schema (person required)).rows ++ (Node.schema (person required)).aside =
      [(["properties", "name"], .schema {}), (["properties", "title"], .schema former)] := rfl
  have hrows : (personDocument required).rows =
      [(["components", "schemas", "Person"], .schema (person required))] := by
    simp [personDocument, OpenApi.rows, Row.under, Row.ofComponents, Row.ofTable, Row.ofList,
      Ordered.entries_singleton]
  obtain ⟨row, hrow, hs⟩ := h
  rw [hrows] at hrow
  rw [List.mem_singleton.mp hrow] at hs
  cases hs with
  | self => exact Or.inl rfl
  | @child _ _ row hr hs =>
    rw [hperson] at hr
    rcases List.mem_pair.mp hr with rfl | rfl
    · exact Or.inr (Or.inl (hleaf rfl hs))
    · exact Or.inr (Or.inr (hleaf rfl hs))

theorem requiresOwn_personDocument {required : List String}
    (hr : ∀ name ∈ required, name ∈ ["name", "title"]) {s : Schema}
    (h : (personDocument required).Includes (.schema s)) : s.RequiresOwn := by
  rcases schemas_personDocument h with rfl | rfl | rfl
  · exact hr
  · exact List.forall_mem_nil _
  · exact List.forall_mem_nil _

theorem requirements_consistent_iff_person :
    current.Sifts ∧
    (∀ s, (personDocument ["name"]).Includes (.schema s) → s.RequiresOwn) ∧
    ∀ s, (current.prune (personDocument ["name"])).run.Includes (.schema s) → s.RequiresOwn := by
  have hbefore : ∀ s, (personDocument ["name"]).Includes (.schema s) → s.RequiresOwn :=
    fun s => requiresOwn_personDocument (by simp)
  refine ⟨current_sifts, hbefore,
    (requirements_consistent_iff current current_sifts _ hbefore).mpr ?_⟩
  intro s hs
  obtain ⟨top, htop, hholds⟩ := hs.holds
  rcases schemas_personDocument ⟨top, htop, hholds.includes⟩ with rfl | rfl | rfl
  · exact List.forall_mem_singleton.mpr ⟨{}, .head _, rfl⟩
  · exact List.forall_mem_nil _
  · exact List.forall_mem_nil _

/-- The title is required after its property has gone. -/
theorem requirement_left_over :
    ¬ ∀ p : Policy Id, p.Sifts → ∀ d : OpenApi,
      (∀ s, d.Includes (.schema s) → s.RequiresOwn) →
      ∀ s, (p.prune d).run.Includes (.schema s) → s.RequiresOwn := by
  intro h
  have hbefore : ∀ s, (personDocument ["name", "title"]).Includes (.schema s) → s.RequiresOwn :=
    fun s => requiresOwn_personDocument (by simp)
  have hafter : (current.prune (personDocument ["name", "title"])).run.Includes
      (.schema { person ["name", "title"] with properties := .ofRows [("name", {})] }) :=
    ⟨_, .head _, .self _⟩
  have htitle := h current current_sifts _ hbefore _ hafter "title" (by decide)
  exact absurd htitle (by decide)

end Witness

end Policy

end ApiDoc
