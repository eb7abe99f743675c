import ApiDoc.Proofs.Inference.Termination

/-!
# Least free names

A type gets the name that is wanted for its component, or the least number behind it
with which no other type owns it. Types get their names in the middle of describing
others, while components are open that are not filled yet; the arenas of that time
are looked at here, together with those that whole requests lead to.
-/

set_option autoImplicit false

namespace ApiDoc.Inference

namespace Arena

def isOwnedByOther (a : Arena) (key name : String) : Bool :=
  (a.owners.get? name).any (· ≠ key)

theorem Sound.contains_takenFrom {a : Arena} (h : a.Sound) (key : String) :
    (a.takenFrom key).contains = a.isOwnedByOther key := by
  funext name
  rw [Bool.eq_iff_iff, List.contains_iff_mem, isOwnedByOther, Option.any_eq_true]
  constructor
  · intro hn
    obtain ⟨owner, c, hne, hc, rfl⟩ := h.owner_of_taken hn
    exact ⟨owner, h.owned owner c hc, by simpa using hne⟩
  · rintro ⟨owner, ho, hne⟩
    exact mem_takenFrom ho (by simpa using hne)

/-- No more names are taken than there are components. -/
theorem Sound.card_takenFrom_le {a : Arena} (h : a.Sound) (key : String) :
    (a.takenFrom key).toFinset.card ≤ a.size := by
  have hsub : (a.takenFrom key).toFinset ⊆ a.names.toFinset := by
    intro name hn
    obtain ⟨owner, c, -, hc, rfl⟩ := h.owner_of_taken (List.mem_toFinset.mp hn)
    exact List.mem_toFinset.mpr (name_mem_of_find? hc)
  calc (a.takenFrom key).toFinset.card
    _ ≤ a.names.toFinset.card := Finset.card_le_card hsub
    _ ≤ a.names.length := a.names.toFinset_card_le
    _ = a.size := List.length_map _

structure AddsName (a : Arena) (key name : String) (b : Arena) : Prop where
  new : a.owners.get? name = none
  owned : b.owners.get? name = some key
  kept : ∀ other, other ≠ name → b.owners.get? other = a.owners.get? other
  names : b.names = a.names ++ [name]

theorem Sound.addsName_allot {a : Arena} (h : a.Sound) {key : String}
    (hk : a.find? key = none) (base : String) :
    a.AddsName key (a.allot key base).1.name (a.allot key base).2 where
  new := h.owners_name_allot hk base
  owned := a.owners.get?_put_self _ key
  kept _ hne := a.owners.get?_put_ne hne key
  names := List.map_append

end Arena

/-! ### In the middle of a description -/

/-- The arenas that descriptions pass through: types that have no component yet get
one, and components are filled. -/
inductive Passed : Arena → Prop where
  | start : Passed {}
  | opened {a : Arena} (h : Passed a) (d : TypeDecl) {t : TypeExpr}
    (ht : a.find? t.text = none) : Passed (a.allot t.text (wantedName d t)).2
  | filled {a : Arena} (h : Passed a) (place : Nat) (s : Schema) : Passed (a.fill place s)

theorem Passed.sound {a : Arena} (h : Passed a) : a.Sound := by
  induction h with
  | start => exact Arena.sound_empty
  | opened _ d ht ih => exact ih.allot ht _
  | filled _ place s ih => exact ih.fill place s

def passing : Link where
  rel g _ := ∀ a : Arena, Passed a → Passed (g.outcome a).2
  pure _ _ h := h
  fail _ _ h := h
  bind hg hk a :=
    ExceptT.outcome_bind_chain (R := fun a b => Passed a → Passed b)
      (fun _ _ _ hab hbc => hbc ∘ hab) (hg a) fun x => hk x _

theorem component_passes {below : Level} (d : TypeDecl) (t : TypeExpr)
    (h : passing.rel (content below d t.args) (content below d t.args)) :
    passing.rel (component below d t) (component below d t) := by
  intro a ha
  cases ho : (component below d t).outcome a with
  | mk r b =>
    cases componentStep_of_outcome ho with
    | found _ => exact ha
    | filled hf hr =>
      have hc := h _ (ha.opened d hf)
      rw [hr] at hc
      exact hc.filled a.size _
    | failed hf hr =>
      have hc := h _ (ha.opened d hf)
      rwa [hr] at hc

theorem level_passes (catalog : Catalog) (depth : Nat) :
    passing.logic.Linked (fun _ => True) (level catalog depth) (level catalog depth) :=
  passing.level_linked (fun _ _ _ _ => trivial) (fun _ t d _ _ h => component_passes d t h) depth

/-- Among them are those that requests lead to, whether or not they can be answered. -/
theorem Reachable.passed {catalog : Catalog} {a : Arena} (h : Reachable catalog a) : Passed a := by
  induction h with
  | start => exact .start
  | request _ depth r ih => exact passing.answer (level_passes catalog depth).schemaOf r _ ih

/-! ### The search for a name -/

/-- A name that is taken gets the least number that makes it free, and the search for it
ends: for an operation id after no more rounds than ids are used, for the component of a
type that has none after no more than there are components. The name that is found becomes
taken, and no other does. -/
theorem least_free_names :
    (∀ (ids : OperationIds) (candidate : String), ∃ rounds ≤ ids.used.toFinset.card,
      Naming.Finds ids.used.contains candidate (ids.claim candidate).1 rounds ∧
      ∀ id, id ∈ (ids.claim candidate).2.used ↔ id = (ids.claim candidate).1 ∨ id ∈ ids.used) ∧
    ∀ a, Passed a → ∀ (d : TypeDecl) (t : TypeExpr), a.indexOf? t.text = none →
      ∃ rounds ≤ a.size,
        Naming.Finds (a.isOwnedByOther t.text) (wantedName d t)
          (a.allot t.text (wantedName d t)).1.name rounds ∧
        a.AddsName t.text (a.allot t.text (wantedName d t)).1.name
          (a.allot t.text (wantedName d t)).2 := by
  constructor
  · intro ids candidate
    obtain ⟨rounds, hle, hfound⟩ := Naming.finds_fresh ids.used candidate
    exact ⟨rounds, hle, hfound, fun _ => List.mem_cons⟩
  · intro a ha d t ht
    have hs := ha.sound
    have hnone : a.find? t.text = none := by simp [Arena.find?, ht]
    obtain ⟨rounds, hle, hfound⟩ := Naming.finds_fresh (a.takenFrom t.text) (wantedName d t)
    rw [hs.contains_takenFrom] at hfound
    exact ⟨rounds, hle.trans (hs.card_takenFrom_le _), hfound, hs.addsName_allot hnone _⟩

section Witness

def listIds : OperationIds := ⟨["list_3", "list", "list_1", "list"]⟩

def pageDecl : TypeDecl :=
  { name := "Page", generics := ["T"]
    shape := .struct [{ name := "rows", type := ⟨"Vec", [⟨"T", []⟩]⟩ }] }

def crowdedCatalog : Catalog := Catalog.ofList [
  pageDecl,
  { name := "PageItem", shape := .struct [] },
  { name := "PageItem_1", shape := .struct [] }]

def crowdedArena : Arena :=
  afterRequests crowdedCatalog 9 [.schemaOf ⟨"PageItem_1", []⟩, .schemaOf ⟨"PageItem", []⟩]

theorem least_free_names_crowded :
    listIds.used.toFinset.card = 3 ∧
    (∃ rounds ≤ 3, Naming.Finds listIds.used.contains "list" "list_2" rounds ∧
      ∀ id, id ∈ (listIds.claim "list").2.used ↔ id = "list_2" ∨ id ∈ listIds.used) ∧
    Reachable crowdedCatalog crowdedArena ∧
    crowdedArena.indexOf? "Page<Item>" = none ∧
    ∃ rounds ≤ 2,
      Naming.Finds (crowdedArena.isOwnedByOther "Page<Item>") "PageItem" "PageItem_2" rounds ∧
      crowdedArena.AddsName "Page<Item>" "PageItem_2"
        (crowdedArena.allot "Page<Item>" "PageItem").2 := by
  have hreach : Reachable crowdedCatalog crowdedArena :=
    .request (.request .start 9 (.schemaOf ⟨"PageItem_1", []⟩)) 9 (.schemaOf ⟨"PageItem", []⟩)
  have hnone : crowdedArena.indexOf? (pageType itemType).text = none := by decide
  refine ⟨by decide, least_free_names.1 listIds "list", hreach, hnone, ?_⟩
  exact least_free_names.2 crowdedArena hreach.passed pageDecl (pageType itemType) hnone

end Witness

end ApiDoc.Inference
