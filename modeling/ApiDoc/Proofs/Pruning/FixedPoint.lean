import ApiDoc.Proofs.Pruning.Liveness
import ApiDoc.Proofs.Pruning.Survivors

/-!
# Deprecated nodes dropped twice

What one pass leaves has no deprecated operation and no deprecated property, and its
deprecated component schemas are needed by what is left. A second pass finds nothing
to drop.
-/

set_option autoImplicit false

namespace ApiDoc

namespace Policy

open Row

/-! ### Nodes that a walk has left -/

section Left

variable {p : Policy Id}

theorem valid_pruneResponses (r : Responses) : (p.pruneResponses r).run.Valid := by
  intro status h
  rw [run_pruneResponses] at h ⊢
  rw [contains_left]
  exact (Option.filter_eq_some_iff.mp h).2

/-- Operations that a walk has gone through designate only responses that they have. -/
theorem valid_inside {n : Node} {o : Operation} {r : Responses} (hn : p.inside n = .operation o)
    (hr : o.responses = some r) : r.Valid := by
  cases n with
  | operation q =>
    cases hn
    obtain ⟨before, -, rfl⟩ := Option.map_eq_some_iff.mp hr
    exact valid_pruneResponses before
  | _ => cases hn

/-- A visited node of what is left is what the walk made of an answer. -/
theorem holds_left (hp : p.Modest) {n b m : Node} (hb : p.leaves n = some b) (h : b.Holds m) :
    ∃ k a, p.ask k = some a ∧ m = p.inside a := by
  induction h generalizing n with
  | self =>
    obtain ⟨a, ha, rfl⟩ := (leaves_eq_some_iff hp).mp hb
    exact ⟨n, a, ha, rfl⟩
  | child hr _ ih =>
    obtain ⟨a, -, rfl⟩ := (leaves_eq_some_iff hp).mp hb
    rw [rows_inside] at hr
    obtain ⟨old, -, c, hc, rfl⟩ := mem_sift.mp hr
    exact ih hc

theorem holds_insideDocument (hp : p.Modest) {d : OpenApi} {m : Node}
    (h : (p.insideDocument d).Holds m) : ∃ k a, p.ask k = some a ∧ m = p.inside a := by
  obtain ⟨row, hrow, hm⟩ := h
  rw [rows_insideDocument] at hrow
  obtain ⟨old, -, b, hb, rfl⟩ := mem_sift.mp hrow
  exact holds_left hp hb hm

end Left

/-! ### Deprecated properties and operations -/

theorem run_pruneSchema_dropDeprecated (s : Schema) : (dropDeprecated.pruneSchema s).run =
    some (subschemas dropDeprecated.pruneSchema (dropDeprecatedProperties s)).run :=
  run_pruneSchema dropDeprecated_reduces.modest s

theorem isDeprecated_left {s t : Schema} (h : (dropDeprecated.pruneSchema s).run = some t) :
    t.isDeprecated = s.isDeprecated := by
  rw [run_pruneSchema_dropDeprecated] at h
  cases h
  exact isDeprecated_dropDeprecatedProperties s

theorem ask_operation_dropDeprecated {o : Operation} {a : Node} :
    dropDeprecated.ask (.operation o) = some a ↔
      o.deprecated ≠ some true ∧ a = .operation o := by
  by_cases ho : o.deprecated = some true
  · simp [ask, dropDeprecated, ho, Id.run]
  · simp [ask, dropDeprecated, ho, Id.run, eq_comm]

/-- Asked again about what the walk has made of its answer, the policy has nothing to say. -/
theorem ask_inside_dropDeprecated {n a : Node} (h : dropDeprecated.ask n = some a) :
    dropDeprecated.ask (dropDeprecated.inside a) = some (dropDeprecated.inside a) := by
  cases n with
  | schema s =>
    cases h
    have hleft : AllCurrent (subschemas dropDeprecated.pruneSchema
        (dropDeprecatedProperties s)).run := by
      intro row hrow
      rw [run_subschemas, properties_dropDeprecatedProperties] at hrow
      obtain ⟨old, hold, t, ht, rfl⟩ := mem_run_table.mp hrow
      rw [isDeprecated_left ht]
      simpa using (Ordered.mem_filter.mp hold).2
    exact congrArg (some ∘ Node.schema) (dropDeprecatedProperties_self hleft)
  | operation o =>
    obtain ⟨ho, rfl⟩ := ask_operation_dropDeprecated.mp h
    exact ask_operation_dropDeprecated.mpr ⟨ho, rfl⟩
  | _ =>
    cases h
    rfl

theorem insideDocument_dropDeprecated {d : OpenApi} {keep : String → Schema → Bool} :
    dropDeprecated.insideDocument ((dropDeprecated.insideDocument d).withSchemas keep) =
      (dropDeprecated.insideDocument d).withSchemas keep := by
  apply insideDocument_spared dropDeprecated_reduces.modest
  rintro n ⟨row, hrow, hn⟩
  obtain ⟨k, a, ha, rfl⟩ := holds_insideDocument dropDeprecated_reduces.modest
    ⟨row, OpenApi.rows_withSchemas _ keep hrow, hn⟩
  exact ⟨ask_inside_dropDeprecated ha, settle_self (fun _ => rfl) fun _ _ => valid_inside⟩

end Policy

/-! ### Component schemas -/

section Components

open References Policy

variable {d : OpenApi}

/-- Only deprecated components are dropped, and the search begins without those. -/
theorem sought_dropDeprecatedSchemas : sought (dropDeprecatedSchemas d) = sought d := by
  have hkeep : ∀ name (s : Schema),
      (keepsSchema d name s && !s.isDeprecated) = !s.isDeprecated := by
    intro name s
    rw [keepsSchema]
    cases s.isDeprecated <;> simp
  have hwithout : withoutDeprecated (dropDeprecatedSchemas d) = withoutDeprecated d :=
    calc (d.withSchemas (keepsSchema d)).withSchemas (fun _ s => !s.isDeprecated)
        = d.withSchemas fun name s => keepsSchema d name s && !s.isDeprecated :=
          d.withSchemas_withSchemas _ _
      _ = withoutDeprecated d := by
          simp only [hkeep]
          rfl
  rw [sought, hwithout, sought]

theorem get?_of_needs {name : String} {s : Schema} (h : d.Needs name)
    (hs : d.componentsOrNew.schemas.get? name = some s) :
    (dropDeprecatedSchemas d).componentsOrNew.schemas.get? name = some s := by
  rw [dropDeprecatedSchemas_eq, OpenApi.schemas_withSchemas]
  exact Ordered.get?_filter hs (keepsSchema_iff.mpr (Or.inr h))

/-- Every component on the way to a needed one is needed itself, so that it stays and the
way is still there. -/
theorem needs_dropDeprecatedSchemas {name : String} (h : d.Needs name) :
    (dropDeprecatedSchemas d).Needs name := by
  rw [OpenApi.Needs, sought_dropDeprecatedSchemas]
  induction h with
  | root hr hd =>
    obtain ⟨s, hs, hdeprecated⟩ := hd
    exact .root hr ⟨s, get?_of_needs (.root hr ⟨s, hs, hdeprecated⟩) hs, hdeprecated⟩
  | next hn hs ht hd ih =>
    obtain ⟨t, hget, hdeprecated⟩ := hd
    have hneeds := References.Needed.next hn hs ht ⟨t, hget, hdeprecated⟩
    exact .next ih (get?_of_needs hn hs) ht ⟨t, get?_of_needs hneeds hget, hdeprecated⟩

theorem dropDeprecatedSchemas_twice (d : OpenApi) :
    dropDeprecatedSchemas (dropDeprecatedSchemas d) = dropDeprecatedSchemas d := by
  have hkeep : ∀ name s,
      (keepsSchema d name s && keepsSchema (dropDeprecatedSchemas d) name s) =
        keepsSchema d name s := by
    intro name s
    cases hs : keepsSchema d name s with
    | false => rfl
    | true =>
      rw [Bool.true_and, keepsSchema_iff]
      exact (keepsSchema_iff.mp hs).imp_right needs_dropDeprecatedSchemas
  calc (d.withSchemas (keepsSchema d)).withSchemas (keepsSchema (dropDeprecatedSchemas d))
      = d.withSchemas fun name s =>
          keepsSchema d name s && keepsSchema (dropDeprecatedSchemas d) name s :=
        d.withSchemas_withSchemas _ _
    _ = dropDeprecatedSchemas d := by
        simp only [hkeep]
        rfl

end Components

/-- One pass leaves nothing to drop to a second one, and no deprecated operation, wherever
it stands. -/
theorem dropDeprecated_twice (d : OpenApi) :
    (d.prune .dropDeprecated).prune .dropDeprecated = d.prune .dropDeprecated ∧
    ∀ o, (d.prune .dropDeprecated).Includes (.operation o) → o.deprecated ≠ some true := by
  have hresult := Policy.prune_dropDeprecated_eq d
  constructor
  · have hinside : Policy.dropDeprecated.insideDocument (d.prune .dropDeprecated) =
        d.prune .dropDeprecated := by
      rw [hresult]
      exact Policy.insideDocument_dropDeprecated
    calc (d.prune .dropDeprecated).prune .dropDeprecated
        = Policy.dropDeprecatedSchemas
            (Policy.dropDeprecated.insideDocument (d.prune .dropDeprecated)) :=
          Policy.prune_dropDeprecated_eq _
      _ = Policy.dropDeprecatedSchemas (d.prune .dropDeprecated) := by rw [hinside]
      _ = d.prune .dropDeprecated := by rw [hresult, dropDeprecatedSchemas_twice]
  · intro o ho
    obtain ⟨row, hrow, hincludes⟩ := ho
    rw [hresult] at hrow
    obtain ⟨n, a, ha, he⟩ := Policy.holds_insideDocument Policy.dropDeprecated_reduces.modest
      ⟨row, OpenApi.rows_withSchemas _ _ hrow, hincludes.holds_operation⟩
    have hask := Policy.ask_inside_dropDeprecated ha
    rw [← he] at hask
    exact (Policy.ask_operation_dropDeprecated.mp hask).1

def hookDocument : OpenApi :=
  { components := some { callbacks := .ofRows [("moved", {
      expressions := .ofRows [("/moved", { slots := {
        get := some { deprecated := some true }
        post := some {} } })] })] } }

theorem dropDeprecated_twice_hook :
    (hookDocument.prune .dropDeprecated).Includes (.operation {}) ∧
      ({} : Operation).deprecated ≠ some true := by
  have hleft : (hookDocument.prune .dropDeprecated).Includes (.operation {}) :=
    ⟨_, .head _, .child (.head _) (.child (.head _) (.self _))⟩
  exact ⟨hleft, (dropDeprecated_twice hookDocument).2 _ hleft⟩

end ApiDoc
