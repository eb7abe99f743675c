import Mathlib.Algebra.GroupWithZero.Nat
import Mathlib.Logic.Relation
import ApiDoc.Pruning.Builtin
import ApiDoc.Proofs.Pruning.DropDeprecated

/-!
# The search for live components

The search goes from the names that are pending to the names that deprecated
components refer to. Every round either settles a pending name or makes one more
component live, so that the rounds come to an end whatever refers to whatever, and
whichever pending name is taken next. In the end just those components are live that
the rest of the document needs.
-/

set_option autoImplicit false

namespace ApiDoc

namespace References

variable (schemas : Ordered Schema)

def Settled (live : List String) (name : String) : Prop :=
  ∀ s, schemas.get? name = some s → s.isDeprecated = true → name ∈ live

/-- How many names a component that is not live yet can still add. -/
def owes (live : List String) (row : String × Schema) : Nat :=
  if row.2.isDeprecated && !live.contains row.1 then (targets row.2.toJson.distinct).length else 0

def owed (live : List String) : Nat := (schemas.entries.map (owes live)).sum

structure Search where
  live : List String
  pending : List String

/-- One round takes any of the pending names. What a component adds may be put anywhere. -/
inductive Round : Search → Search → Prop
  | settled {live pending rest : List String} {name : String} (hp : pending.Perm (name :: rest))
    (h : Settled schemas live name) : Round ⟨live, pending⟩ ⟨live, rest⟩
  | found {live pending rest more : List String} {name : String} {s : Schema}
    (hp : pending.Perm (name :: rest)) (hs : schemas.get? name = some s)
    (hd : s.isDeprecated = true) (hl : name ∉ live)
    (hm : more.Perm (targets s.toJson.distinct ++ rest)) :
    Round ⟨live, pending⟩ ⟨name :: live, more⟩

def IsDeprecated (name : String) : Prop :=
  ∃ s, schemas.get? name = some s ∧ s.isDeprecated = true

/-- The deprecated components that are referred to, by what is given or by another one of
them. -/
inductive Needed (roots : List String) : String → Prop
  | root {name : String} (hr : name ∈ roots) (hd : IsDeprecated schemas name) : Needed roots name
  | next {name target : String} {s : Schema} (h : Needed roots name)
    (hs : schemas.get? name = some s) (ht : target ∈ targets s.toJson.distinct)
    (hd : IsDeprecated schemas target) : Needed roots target

structure Saturated (live pending result : List String) : Prop where
  kept : ∀ name ∈ live, name ∈ result
  settled : ∀ name ∈ pending, Settled schemas result name
  closed : ∀ name ∈ result, name ∉ live → ∀ s, schemas.get? name = some s →
    ∀ target ∈ targets s.toJson.distinct, Settled schemas result target

variable {schemas} {live pending : List String} {name : String} {s : Schema}

theorem owes_cons_le (row : String × Schema) : owes (name :: live) row ≤ owes live row := by
  unfold owes
  by_cases hl : row.1 ∈ live
  · simp [hl]
  · by_cases hk : row.1 = name <;> simp [hl, hk]

theorem sum_owes_cons_le (rows : List (String × Schema)) :
    (rows.map (owes (name :: live))).sum ≤ (rows.map (owes live)).sum := by
  induction rows with
  | nil => exact Nat.le_refl _
  | cons row rows ih =>
    have hrow : owes (name :: live) row ≤ owes live row := owes_cons_le row
    simp only [List.map_cons, List.sum_cons]
    omega

/-- A component that becomes live adds its names and owes them no longer. -/
theorem owed_cons (h : (name, s) ∈ schemas.entries) (hd : s.isDeprecated = true)
    (hl : name ∉ live) :
    (targets s.toJson.distinct).length + owed schemas (name :: live) ≤ owed schemas live := by
  unfold owed
  generalize schemas.entries = rows at h
  induction rows with
  | nil => cases h
  | cons row rows ih =>
    have hle : (rows.map (owes (name :: live))).sum ≤ (rows.map (owes live)).sum :=
      sum_owes_cons_le rows
    have hrow : owes (name :: live) row ≤ owes live row := owes_cons_le row
    simp only [List.map_cons, List.sum_cons] at ih ⊢
    rcases List.mem_cons.mp h with rfl | h
    · have hbefore : owes live (name, s) = (targets s.toJson.distinct).length := by
        simp [owes, hd, hl]
      have hafter : owes (name :: live) (name, s) = 0 := by
        simp [owes]
      omega
    · have := ih h
      omega

theorem rounds_eq (schemas : Ordered Schema) (pending : List String) :
    rounds schemas pending = pending.length + owed schemas [] + 1 := by
  have hsum : ((schemas.entries.map Prod.snd).filter (·.isDeprecated) |>.flatMap
      fun s => targets s.toJson.distinct).length = (schemas.entries.map (owes [])).sum := by
    induction schemas.entries with
    | nil => rfl
    | cons row rows ih =>
      rw [List.map_cons, List.map_cons, List.sum_cons, ← ih, owes]
      cases hd : row.2.isDeprecated <;> simp [hd]
  simp only [rounds, Ordered.values, owed, hsum]

/-! ### Rounds come to an end -/

def Search.size (schemas : Ordered Schema) (search : Search) : Nat :=
  search.pending.length + owed schemas search.live

variable {a b : Search} {roots : List String}

theorem Round.size_lt (h : Round schemas a b) : b.size schemas < a.size schemas := by
  cases h with
  | settled hp _ =>
    simp only [Search.size, hp.length_eq, List.length_cons]
    omega
  | found hp hs hd hl hm =>
    have howed := owed_cons (schemas.mem_of_get? hs) hd hl
    simp only [Search.size, hp.length_eq, hm.length_eq, List.length_cons, List.length_append]
    omega

theorem rounds_end : WellFounded fun after before => Round schemas before after :=
  Subrelation.wf Round.size_lt (measure (Search.size schemas)).wf

/-- The search takes the name that was found last. -/
theorem reach_succ (schemas : Ordered Schema) (fuel : Nat) (live : List String) (name : String)
    (pending : List String) : ∃ next, Round schemas ⟨live, name :: pending⟩ next ∧
      reach schemas (fuel + 1) live (name :: pending) =
        reach schemas fuel next.live next.pending := by
  by_cases h : ∃ s, schemas.get? name = some s ∧ s.isDeprecated = true ∧ name ∉ live
  · obtain ⟨s, hs, hd, hl⟩ := h
    refine ⟨_, .found (.refl _) hs hd hl (.refl _), ?_⟩
    simp [reach, hs, hd, hl]
  · have hsettled : Settled schemas live name := by
      intro s hs hd
      by_contra hl
      exact h ⟨s, hs, hd, hl⟩
    refine ⟨_, .settled (.refl _) hsettled, ?_⟩
    cases hs : schemas.get? name with
    | none => simp [reach, hs]
    | some s =>
      cases hd : s.isDeprecated with
      | false => simp [reach, hs, hd]
      | true => simp [reach, hs, hd, hsettled s hs hd]

/-- With more rounds than names that are pending or owed, nothing is left pending. -/
theorem reach_run (fuel : Nat) (live pending : List String)
    (h : Search.size schemas ⟨live, pending⟩ < fuel) :
    Relation.ReflTransGen (Round schemas) ⟨live, pending⟩
      ⟨reach schemas fuel live pending, []⟩ := by
  induction fuel generalizing live pending with
  | zero => omega
  | succ fuel ih =>
    cases pending with
    | nil => exact .refl
    | cons name pending =>
      obtain ⟨⟨live', pending'⟩, hround, hreach⟩ := reach_succ schemas fuel live name pending
      have hsize := hround.size_lt
      rw [hreach]
      exact .head hround (ih live' pending' (by omega))

/-! ### What rounds preserve -/

structure Sound (schemas : Ordered Schema) (roots : List String) (search : Search) : Prop where
  live : ∀ name ∈ search.live, Needed schemas roots name
  pending : ∀ name ∈ search.pending, IsDeprecated schemas name → Needed schemas roots name

def Handled (schemas : Ordered Schema) (search : Search) (name : String) : Prop :=
  Settled schemas search.live name ∨ name ∈ search.pending

structure Complete (schemas : Ordered Schema) (roots : List String) (search : Search) :
    Prop where
  roots : ∀ name ∈ roots, Handled schemas search name
  targets : ∀ name ∈ search.live, ∀ s, schemas.get? name = some s →
    ∀ target ∈ targets s.toJson.distinct, Handled schemas search target

theorem Round.sound (h : Round schemas a b) (ha : Sound schemas roots a) :
    Sound schemas roots b := by
  cases h with
  | settled hp _ =>
    exact ⟨ha.live, fun n hn => ha.pending n (hp.mem_iff.mpr (List.mem_cons_of_mem _ hn))⟩
  | @found _ _ _ _ name s hp hs hd hl hm =>
    have hneeded : Needed schemas roots name :=
      ha.pending name (hp.mem_iff.mpr List.mem_cons_self) ⟨s, hs, hd⟩
    refine ⟨List.forall_mem_cons.mpr ⟨hneeded, ha.live⟩, fun n hn hdeprecated => ?_⟩
    rcases List.mem_append.mp (hm.mem_iff.mp hn) with ht | hn
    · exact .next hneeded hs ht hdeprecated
    · exact ha.pending n (hp.mem_iff.mpr (List.mem_cons_of_mem _ hn)) hdeprecated

theorem Round.handled (h : Round schemas a b) (ha : Handled schemas a name) :
    Handled schemas b name := by
  cases h with
  | settled hp hsettled =>
    rcases ha with ha | ha
    · exact Or.inl ha
    · rcases List.mem_cons.mp (hp.mem_iff.mp ha) with rfl | ha
      · exact Or.inl hsettled
      · exact Or.inr ha
  | found hp hs hd hl hm =>
    rcases ha with ha | ha
    · exact Or.inl fun s hs hd => List.mem_cons_of_mem _ (ha s hs hd)
    · rcases List.mem_cons.mp (hp.mem_iff.mp ha) with rfl | ha
      · exact Or.inl fun _ _ _ => List.mem_cons_self
      · exact Or.inr (hm.mem_iff.mpr (List.mem_append_right _ ha))

theorem Round.complete (h : Round schemas a b) (ha : Complete schemas roots a) :
    Complete schemas roots b := by
  refine ⟨fun n hn => h.handled (ha.roots n hn), fun n hn t ht target htarget => ?_⟩
  have hbefore : n ∈ a.live → Handled schemas b target :=
    fun hlive => h.handled (ha.targets n hlive t ht target htarget)
  cases h with
  | settled _ _ => exact hbefore hn
  | found hp hs hd hl hm =>
    rcases List.mem_cons.mp hn with rfl | hn
    · rw [hs] at ht
      cases ht
      exact Or.inr (hm.mem_iff.mpr (List.mem_append_left _ htarget))
    · exact hbefore hn

theorem sound_begin : Sound schemas roots ⟨[], roots⟩ :=
  ⟨List.forall_mem_nil _, fun _ hn hd => .root hn hd⟩

theorem complete_begin : Complete schemas roots ⟨[], roots⟩ :=
  ⟨fun _ hn => Or.inr hn, List.forall_mem_nil _⟩

section Run

variable (h : Relation.ReflTransGen (Round schemas) ⟨[], roots⟩ ⟨live, []⟩)

include h

theorem sound_of_run : Sound schemas roots ⟨live, []⟩ := by
  generalize (⟨live, []⟩ : Search) = final at h
  induction h with
  | refl => exact sound_begin
  | tail _ hround ih => exact hround.sound ih

theorem complete_of_run : Complete schemas roots ⟨live, []⟩ := by
  generalize (⟨live, []⟩ : Search) = final at h
  induction h with
  | refl => exact complete_begin
  | tail _ hround ih => exact hround.complete ih

/-- With nothing pending, what is handled is settled. -/
theorem saturated_of_run : Saturated schemas [] roots live := by
  have hcomplete := complete_of_run h
  have hsettled : ∀ n, Handled schemas ⟨live, []⟩ n → Settled schemas live n :=
    fun n hn => hn.resolve_right List.not_mem_nil
  exact ⟨List.forall_mem_nil _, fun n hn => hsettled n (hcomplete.roots n hn),
    fun n hn _ t ht target htarget => hsettled target (hcomplete.targets n hn t ht target htarget)⟩

theorem mem_live_iff (name : String) : name ∈ live ↔ Needed schemas roots name := by
  constructor
  · exact (sound_of_run h).live name
  · intro hneeded
    have hsaturated := saturated_of_run h
    induction hneeded with
    | root hr hd =>
      obtain ⟨s, hs, hdeprecated⟩ := hd
      exact hsaturated.settled _ hr s hs hdeprecated
    | next _ hs ht hd ih =>
      obtain ⟨t, hget, hdeprecated⟩ := hd
      exact hsaturated.closed _ ih List.not_mem_nil _ hs _ ht t hget hdeprecated

end Run

/-! ### The components of a document -/

def sought (d : OpenApi) : List String := targets (withoutDeprecated d).toJson.distinct

def Finds (d : OpenApi) (live : List String) : Prop :=
  Relation.ReflTransGen (Round d.componentsOrNew.schemas) ⟨[], sought d⟩ ⟨live, []⟩

theorem finds_live (d : OpenApi) : Finds d (References.live d) := by
  apply reach_run
  rw [rounds_eq]
  exact Nat.lt_succ_self _

theorem live_saturated (d : OpenApi) :
    Saturated d.componentsOrNew.schemas [] (targets (withoutDeprecated d).toJson.distinct)
      (References.live d) :=
  saturated_of_run (finds_live d)

end References

def OpenApi.Needs (d : OpenApi) (name : String) : Prop :=
  References.Needed d.componentsOrNew.schemas (References.sought d) name

namespace References

theorem mem_live (d : OpenApi) (name : String) : name ∈ live d ↔ d.Needs name :=
  mem_live_iff (finds_live d) name

def keepsSchema (d : OpenApi) (name : String) (s : Schema) : Bool :=
  !s.isDeprecated || (live d).contains name

theorem keepsSchema_iff {d : OpenApi} {name : String} {s : Schema} :
    keepsSchema d name s = true ↔ s.isDeprecated = false ∨ d.Needs name := by
  rw [← mem_live d name, keepsSchema]
  simp

theorem dropDeprecatedSchemas_eq (d : OpenApi) :
    Policy.dropDeprecatedSchemas d = d.withSchemas (keepsSchema d) := rfl

end References

theorem Policy.prune_dropDeprecated_eq (d : OpenApi) :
    d.prune dropDeprecated = dropDeprecatedSchemas (dropDeprecated.insideDocument d) :=
  run_prune dropDeprecated d

/-- Of the deprecated component schemas those are left that are needed, and nothing else
changes. Whatever refers to whatever, no search goes on for ever, one of them is that of the
policy, and all of them find the same. -/
theorem needed_schemas_left (d : OpenApi) :
    Policy.dropDeprecatedSchemas d = d.withSchemas (References.keepsSchema d) ∧
    (∀ name s, References.keepsSchema d name s = true ↔ s.isDeprecated = false ∨ d.Needs name) ∧
    (WellFounded fun after before =>
      References.Round d.componentsOrNew.schemas before after) ∧
    References.Finds d (References.live d) ∧
    ∀ live, References.Finds d live → ∀ name, name ∈ live ↔ d.Needs name :=
  ⟨References.dropDeprecatedSchemas_eq d, fun _ _ => References.keepsSchema_iff,
    References.rounds_end, References.finds_live d, fun _ => References.mem_live_iff⟩

def Schema.refersTo (names : List String) : Schema :=
  { allOf := names.map fun name => { reference := some ("#/components/schemas/" ++ name) } }

def Schema.outOfUse (s : Schema) : Schema :=
  { s with keywords := { s.keywords with deprecated := some true } }

def ringDocument : OpenApi :=
  { components := some { schemas := .ofRows [("Pet", .refersTo ["Cat", "Cat"]),
      ("Cat", .outOfUse (.refersTo ["Kitten"])),
      ("Kitten", .outOfUse (.refersTo ["Cat", "Litter"])),
      ("Dodo", .outOfUse (.refersTo ["Dodo"]))] } }

theorem needed_schemas_left_ring :
    References.Finds ringDocument ["Kitten", "Cat"] ∧ ringDocument.Needs "Kitten" ∧
      ¬ ringDocument.Needs "Dodo" := by
  have hlive : References.live ringDocument = ["Kitten", "Cat"] := by decide +kernel
  obtain ⟨-, -, -, hfinds, hexact⟩ := needed_schemas_left ringDocument
  rw [hlive] at hfinds
  have hneeds := hexact _ hfinds
  refine ⟨hfinds, (hneeds "Kitten").mp (by decide), fun hdodo => ?_⟩
  exact absurd ((hneeds "Dodo").mpr hdodo) (by decide)

end ApiDoc
