import ApiDoc.Proofs.Assembly.Retained
import ApiDoc.Proofs.Assembly.Synthesis
import ApiDoc.Proofs.Node.Callbacks
import ApiDoc.Proofs.Pruning.Stateful

/-!
# Designated responses

Whoever designates a response must have it. A handler without notes designates the only
response there is, notes designate none, and a walk that removes responses forgets what
designated them. So if the designations of a base document are valid, then so are those of
every document that is built on it, and of what any policy leaves of that.
-/

set_option autoImplicit false

namespace ApiDoc

open Inference (Gen Arena)

theorem Responses.valid_of_none {r : Responses} (h : r.designated = none) : r.Valid := by
  intro status hs
  rw [h] at hs
  cases hs

/-! ### Where operations stand -/

namespace Node

/-- Operations stand in operations, path items and callbacks only. -/
theorem not_holds_operation {n : Node} (h : n.rank < toLex (4, 0)) (o : Operation) :
    ¬ n.Holds (.operation o) := by
  intro ho
  have hle : (Node.operation o).rank < toLex (4, 0) := ho.includes.rank_le.trans_lt h
  simp [rank, Prod.Lex.toLex_lt_toLex] at hle

theorem wellDesignated_of_rank {n : Node} (h : n.rank < toLex (4, 0)) : n.WellDesignated :=
  fun o _ ho => absurd ho (not_holds_operation h o)

theorem WellDesignated.row {n : Node} (h : n.WellDesignated) {row : Row} (hrow : row ∈ n.rows) :
    row.2.WellDesignated := fun o r ho hr => h o r (.child hrow ho) hr

theorem wellDesignated_of_rows {n : Node} (hn : ∀ o r, n = .operation o → o.responses = some r →
    r.Valid) (h : ∀ row ∈ n.rows, row.2.WellDesignated) : n.WellDesignated := by
  intro o r ho hr
  cases ho with
  | self => exact hn o r rfl hr
  | child hrow hm => exact h _ hrow o r hm hr

theorem rows_operation {o : Operation} {row : Row} (h : row ∈ (Node.operation o).rows) :
    (∃ e ∈ o.callbacks.entries, row.2 = .callback e.2) ∨ row.2.rank < toLex (4, 0) := by
  simp only [rows, Row.ofResponses, List.mem_append, List.mem_flatMap, Row.mem_ofTable,
    Row.mem_ofSlot, Row.mem_ofList, or_assoc] at h
  rcases h with ⟨q, -, rfl⟩ | ⟨b, -, rfl⟩ | ⟨r, -, e, -, rfl⟩ | ⟨e, he, rfl⟩ | ⟨s, -, rfl⟩ |
    ⟨sets, -, q, -, rfl⟩
  case inr.inr.inr.inl => exact Or.inl ⟨e, he, rfl⟩
  all_goals exact Or.inr (by simp [rank, Prod.Lex.toLex_lt_toLex])

theorem wellDesignated_operation_iff {o : Operation} : (Node.operation o).WellDesignated ↔
    (∀ r, o.responses = some r → r.Valid) ∧
      o.callbacks.All fun c => (Node.callback c).WellDesignated := by
  constructor
  · exact fun h => ⟨fun r hr => h o r (.self _) hr, fun row hrow => h.row (mem_rows_callback hrow)⟩
  · rintro ⟨hr, hc⟩
    refine wellDesignated_of_rows (fun q r hq => ?_) fun row hrow => ?_
    · cases hq
      exact hr r
    · rcases rows_operation hrow with ⟨e, he, heq⟩ | hrank
      · rw [heq]
        exact hc e he
      · exact wellDesignated_of_rank hrank

theorem wellDesignated_pathItem_iff {path : String} {i : PathItem} :
    (Node.pathItem path i).WellDesignated ↔
      ∀ m o, i.slots.at? m = some o → (Node.operation o).WellDesignated := by
  constructor
  · exact fun h m o ho => h.row (mem_rows_operation ho)
  · intro h
    refine wellDesignated_of_rows nofun fun row hrow => ?_
    simp only [rows, List.mem_append, List.mem_map, Row.mem_ofList] at hrow
    rcases hrow with (⟨e, he, rfl⟩ | ⟨q, -, rfl⟩) | ⟨s, -, rfl⟩
    · exact h e.1 e.2 (ByMethod.mem_toList.mp he)
    all_goals exact wellDesignated_of_rank (by simp [rank, Prod.Lex.toLex_lt_toLex])

theorem wellDesignated_callback {c : Callback} (h : c.expressions.All fun i =>
    ∀ m o, i.slots.at? m = some o → (Node.operation o).WellDesignated) :
    (Node.callback c).WellDesignated := by
  refine wellDesignated_of_rows nofun fun row hrow => ?_
  obtain ⟨e, he, rfl⟩ := List.mem_map.mp hrow
  exact wellDesignated_pathItem_iff.mpr (h e he)

end Node

namespace OpenApi

def WellDesignated (d : OpenApi) : Prop :=
  ∀ o, d.Includes (.operation o) → ∀ r, o.responses = some r → r.Valid

theorem wellDesignated_iff_rows {d : OpenApi} :
    d.WellDesignated ↔ ∀ row ∈ d.rows, row.2.WellDesignated := by
  constructor
  · exact fun h row hrow o r ho => h o ⟨row, hrow, ho.includes⟩ r
  · rintro h o ⟨row, hrow, ho⟩ r
    exact h row hrow o r ho.holds_operation

theorem rows_components {c : Components} {row : Row} (h : row ∈ Row.ofComponents c) :
    (∃ e ∈ c.callbacks.entries, row.2 = .callback e.2) ∨ row.2.rank < toLex (4, 0) := by
  simp only [Row.ofComponents, List.mem_append, Row.mem_ofTable, or_assoc] at h
  rcases h with ⟨e, -, rfl⟩ | ⟨e, -, rfl⟩ | ⟨e, -, rfl⟩ | ⟨e, -, rfl⟩ | ⟨e, -, rfl⟩ | ⟨e, -, rfl⟩ |
    ⟨e, -, rfl⟩ | ⟨e, -, rfl⟩ | ⟨e, he, rfl⟩
  case inr.inr.inr.inr.inr.inr.inr.inr => exact Or.inl ⟨e, he, rfl⟩
  all_goals exact Or.inr (by simp [Node.rank, Prod.Lex.toLex_lt_toLex])

/-- Operations stand below the paths and in the callbacks of the components. -/
theorem wellDesignated_iff {d : OpenApi} : d.WellDesignated ↔
    (d.paths.All fun i => ∀ m o, i.slots.at? m = some o → (Node.operation o).WellDesignated) ∧
      d.componentsOrNew.callbacks.All fun c => (Node.callback c).WellDesignated := by
  rw [wellDesignated_iff_rows]
  constructor
  · intro h
    refine ⟨fun row hrow => Node.wellDesignated_pathItem_iff.mp (h _ (mem_rows_path hrow)), ?_⟩
    intro row hrow
    cases hc : d.components with
    | none =>
      rw [componentsOrNew, hc] at hrow
      cases hrow
    | some c =>
      rw [componentsOrNew, hc] at hrow
      exact h _ (mem_rows_callback hc hrow)
  · rintro ⟨hpaths, hcallbacks⟩ row hrow
    simp only [rows, List.mem_append, List.mem_flatMap, Option.mem_toList, Row.mem_under,
      Row.mem_ofList, List.mem_map] at hrow
    rcases hrow with (((⟨c, hc, r, hr, rfl⟩ | ⟨e, he, rfl⟩) | ⟨s, -, rfl⟩) | ⟨t, -, rfl⟩) |
      ⟨q, -, rfl⟩
    · rcases rows_components hr with ⟨e, he, heq⟩ | hrank
      · dsimp only
        rw [heq]
        exact hcallbacks e (by rwa [componentsOrNew, hc])
      · exact Node.wellDesignated_of_rank hrank
    · exact Node.wellDesignated_pathItem_iff.mpr (hpaths e he)
    all_goals exact Node.wellDesignated_of_rank (by simp [Node.rank, Prod.Lex.toLex_lt_toLex])

end OpenApi

/-! ### What is made of notes -/

section Notes

variable {infer : TypeExpr → Gen Schema} {u v : Arena}

/-- Notes for a callback designate no response. -/
theorem CallbackOperationNote.wellDesignated {n : CallbackOperationNote} {o : Operation}
    (h : (n.node infer).outcome u = (.ok o, v)) : (Node.operation o).WellDesignated := by
  obtain ⟨ps, c, -, h⟩ := ExceptT.outcome_bind_eq_ok h
  obtain ⟨body, d, -, h⟩ := ExceptT.outcome_bind_eq_ok h
  obtain ⟨table, e, -, h⟩ := ExceptT.outcome_bind_eq_ok h
  obtain ⟨rfl, -⟩ := ExceptT.outcome_pure_eq_ok h
  refine Node.wellDesignated_operation_iff.mpr ⟨?_, Ordered.all_empty _⟩
  rintro r ⟨⟩
  exact Responses.valid_of_none rfl

theorem CallbackNote.wellDesignated {n : CallbackNote} {c : Callback}
    (h : (n.node infer).outcome u = (.ok c, v)) : (Node.callback c).WellDesignated := by
  refine Node.wellDesignated_callback fun row hrow m o ho => ?_
  obtain ⟨own, u', v', -, hnode⟩ := node_of_slot h hrow ho
  exact own.wellDesignated hnode

end Notes

namespace Assembly

open Step

section Handlers

variable {a : Assembly} {u v : Arena}

theorem wellDesignated_callbacks {h : Handler} {t : Ordered Callback}
    (ho : (a.callbacks h).outcome u = (.ok t, v)) :
    t.All fun c => (Node.callback c).WellDesignated := by
  have hpaired : a.callbacks h = ExceptT.paired (fun n => n.node a.infer) h.callbacks >>=
      fun made => pure (made.foldl (fun m row => m.put row.1.name row.2) {}) :=
    ExceptT.foldlM_eq_paired _ (fun (m : Ordered Callback) (n : CallbackNote) c => m.put n.name c)
      h.callbacks {}
  rw [hpaired] at ho
  obtain ⟨made, v', hmade, ho⟩ := ExceptT.outcome_bind_eq_ok ho
  obtain ⟨rfl, -⟩ := ExceptT.outcome_pure_eq_ok ho
  have hrows := (ExceptT.paired_eq_ok hmade).2
  have hput : made.foldl (fun m row => m.put row.1.name row.2) {} =
      Ordered.ofRows (made.map fun row => (row.1.name, row.2)) := by
    rw [Ordered.ofRows, Ordered.putAll, List.foldl_map]
  rw [hput]
  refine Ordered.all_ofRows fun row hrow => ?_
  obtain ⟨own, hown, rfl⟩ := List.mem_map.mp hrow
  obtain ⟨u', w', hnode⟩ := hrows own hown
  exact own.1.wellDesignated hnode

theorem valid_onlyResponse (status : String) (content : Content) :
    (onlyResponse status content).Valid := by
  rw [onlyResponse_eq]
  rintro other ⟨⟩
  simp [Ordered.contains, Ordered.get?, Ordered.entries_singleton]

/-- A handler without notes designates its only response, and with notes none. -/
theorem valid_responses {catalog : Catalog} {infer : TypeExpr → Gen Schema} {e : Endpoint}
    {h : Handler} {r : Responses} (ho : (responses catalog infer e h).outcome u = (.ok r, v)) :
    r.Valid := by
  unfold responses at ho
  dsimp only at ho
  split at ho
  · obtain ⟨rfl, -⟩ := ExceptT.outcome_pure_eq_ok ho
    exact valid_onlyResponse _ _
  · obtain ⟨rfl, -⟩ := ExceptT.outcome_pure_eq_ok ho
    exact valid_onlyResponse _ _
  · obtain ⟨content, v', -, ho⟩ := ExceptT.outcome_bind_eq_ok ho
    obtain ⟨rfl, -⟩ := ExceptT.outcome_pure_eq_ok ho
    exact valid_onlyResponse _ _
  · obtain ⟨entries, v', -, ho⟩ := ExceptT.outcome_bind_eq_ok ho
    obtain ⟨rfl, -⟩ := ExceptT.outcome_pure_eq_ok ho
    exact Responses.valid_of_none rfl

theorem wellDesignated_described {e : Endpoint} {h : Handler} {slot : Slot} {d b : Draft}
    {o : Operation} (ho : a.described e h slot d = (.ok o, b)) :
    (Node.operation o).WellDesignated := by
  obtain ⟨-, tagged, v₁, v₂, v₃, own, -, -, -, hresponses, hown, hcallbacks, -⟩ :=
    described_parts ho
  refine Node.wellDesignated_operation_iff.mpr ⟨fun r hr => ?_, wellDesignated_callbacks hcallbacks⟩
  obtain rfl : own = r := Option.some.inj (hown.symm.trans hr)
  exact valid_responses hresponses

end Handlers

/-! ### One step after the other -/

def Sustains (d d' : OpenApi) : Prop := d.WellDesignated → d'.WellDesignated

def holders (d : OpenApi) : Ordered PathItem × Ordered Callback :=
  (d.paths, d.componentsOrNew.callbacks)

theorem sustains_of_holders {d d' : OpenApi} (h : holders d' = holders d) : Sustains d d' := by
  intro hd
  obtain ⟨hpaths, hcallbacks⟩ := Prod.mk.inj h
  rw [OpenApi.wellDesignated_iff] at hd ⊢
  rwa [hpaths, hcallbacks]

section Sustaining

variable {a : Assembly} {basePath : Option String} {e : Endpoint}

theorem sustains_refl (d : OpenApi) : Sustains d d := id

theorem sustains_trans (d d' d'' : OpenApi) (h : Sustains d d') (h' : Sustains d' d'') :
    Sustains d d'' := h' ∘ h

theorem holders_addTag (d : OpenApi) (t : Tag) : holders (d.addTag t) = holders d := by
  unfold OpenApi.addTag
  split <;> rfl

theorem sustains_addTag (d : OpenApi) (t : Tag) : Sustains d (d.addTag t) :=
  sustains_of_holders (holders_addTag d t)

theorem sustains_place (path : String) (verb : HttpMethod) {o : Operation}
    (ho : (Node.operation o).WellDesignated) (d : OpenApi) :
    Sustains d (a.place path verb o d) := by
  intro hd
  rw [OpenApi.wellDesignated_iff] at hd ⊢
  refine ⟨hd.1.put path fun m q hq => ?_, hd.2⟩
  by_cases hm : m = verb
  · subst hm
    rw [ByMethod.at?_set_self] at hq
    cases hq
    exact ho
  · rw [ByMethod.at?_set_ne _ hm] at hq
    cases hitem : d.paths.get? path with
    | none =>
      rw [hitem] at hq
      cases m <;> cases hq
    | some item =>
      rw [hitem] at hq
      exact hd.1 (path, item) (Ordered.mem_of_get? _ hitem) m q hq

theorem placesBy_sustains (h : Handler) : PlacesBy Sustains a basePath e h := fun _ ho =>
  sustains_place _ _ (wellDesignated_described ho) _

theorem moves_sustaining_addEndpoints (es : List Endpoint) :
    Moves Sustains (a.addEndpoints basePath es) := by
  induction es with
  | nil => exact moves_still sustains_refl fun _ => rfl
  | cons e es ih =>
    have hone : Moves Sustains (a.addEndpoint basePath e) :=
      moves_addEndpoint sustains_refl sustains_trans sustains_addTag fun h _ => placesBy_sustains h
    exact hone.bind sustains_trans fun _ => ih

theorem keeps_holders_applyDefinition (n : DefinitionNote) : Keeps holders (applyDefinition n) := by
  have htags : Keeps holders (defineTags n.tags) :=
    moves_defineTags (R := fun d d' => holders d' = holders d) (fun _ => rfl)
      (fun _ _ _ h h' => h'.trans h) holders_addTag n.tags
  exact (keeps_defineInfo (fun _ _ => rfl) n.info).bind fun _ =>
    (keeps_defineServers (fun _ _ => rfl) n.servers).bind fun _ => htags.bind fun _ =>
      Keeps.bind (moves_edit fun _ => rfl) fun _ => keeps_defineExtensions (fun _ _ => rfl) _

theorem Keeps.sustains {α : Type} {g : Step α} (h : Keeps holders g) : Moves Sustains g :=
  fun d => sustains_of_holders (h d)

theorem moves_sustaining_addInventory (i : Inventory) : Moves Sustains (a.addInventory i) := by
  have hschemes : Keeps holders (addSecuritySchemes i.securitySchemes) :=
    keeps_addSecuritySchemes (fun _ _ => rfl) _
  exact (keeps_holders_applyDefinition i.definition).sustains.bind sustains_trans fun _ =>
    hschemes.sustains.bind sustains_trans fun _ => moves_sustaining_addEndpoints i.endpoints

end Sustaining

/-! ### The finished document -/

theorem wellDesignated_withResponses {o : Operation} (h : (Node.operation o).WellDesignated) :
    (Node.operation (withResponses o)).WellDesignated := by
  rw [Node.wellDesignated_operation_iff] at h ⊢
  refine ⟨fun r hr => ?_, h.2⟩
  cases ho : o.responses with
  | some own =>
    rw [withResponses, ho] at hr
    cases hr
    exact h.1 _ ho
  | none =>
    rw [withResponses, ho] at hr
    cases hr
    exact Responses.valid_of_none rfl

theorem sustains_finish (a : Assembly) (d : Draft) : Sustains d.document (a.finish d) := by
  intro h
  rw [OpenApi.wellDesignated_iff] at h ⊢
  obtain ⟨hpaths, hcallbacks⟩ := h
  constructor
  · intro row hrow m o ho
    rw [finish, Ordered.entries_mapValues] at hrow
    obtain ⟨before, hbefore, rfl⟩ := List.mem_map.mp hrow
    rw [at?_mapSlots] at ho
    obtain ⟨q, hq, rfl⟩ := Option.map_eq_some_iff.mp ho
    exact wellDesignated_withResponses (hpaths before hbefore m q hq)
  · rw [componentsOrNew_finish]
    exact hcallbacks

theorem wellDesignated_build {settings : Settings} {strategy : IdStrategy} {base d : OpenApi}
    {i : Inventory} {depth : Nat} (hbase : base.WellDesignated)
    (h : build settings strategy base i depth = .ok d) : d.WellDesignated := by
  obtain ⟨last, hrun, rfl⟩ := build_run h
  have hmoves := moves_sustaining_addInventory
    (a := { settings, strategy, catalog := i.types, depth }) i (begin base)
  rw [hrun] at hmoves
  exact sustains_finish _ last (hmoves hbase)

end Assembly

namespace Policy

variable {σ : Type} {p : Policy (StateM σ)} {s s' : σ}

/-- An operation that the walk leaves designates a status if and only if it did so before
and a response is left for it. -/
theorem Passes.designated_iff {o o' : Operation}
    (h : p.Passes s (.operation o) (some (.operation o')) s') {r' : Responses}
    (hr' : o'.responses = some r') : ∃ r, o.responses = some r ∧ ∀ status,
      r'.designated = some status ↔
        r.designated = some status ∧ r'.entries.contains status = true := by
  obtain ⟨q, hq, hdesignated⟩ := h.settles.operation
  cases hq
  obtain ⟨r, hr, hfilter⟩ := hdesignated r' hr'
  refine ⟨r, hr, fun status => ?_⟩
  rw [hfilter, Option.filter_eq_some_iff]

/-- Every operation that is left was left of an operation. -/
theorem PassesRows.of_includes {d d' : OpenApi} (h : p.PassesRows s d.rows d'.rows s')
    {o' : Operation} (ho' : d'.Includes (.operation o')) : ∃ o, d.Includes (.operation o) ∧
      ∃ t t', p.Passes t (.operation o) (some (.operation o')) t' := by
  obtain ⟨row, hrow, ho'⟩ := ho'
  obtain ⟨m, ⟨top, htop, hm⟩, t, t', hpasses⟩ := h.of_holds ⟨row, hrow, ho'.holds_operation⟩
  obtain ⟨o, rfl, -⟩ := hpasses.settles.operation
  exact ⟨o, ⟨top, htop, hm.includes⟩, t, t', hpasses⟩

theorem PassesRows.wellDesignated {d d' : OpenApi} (h : p.PassesRows s d.rows d'.rows s') :
    d'.WellDesignated := by
  intro o' ho' r' hr' status hstatus
  obtain ⟨o, -, t, t', hpasses⟩ := h.of_includes ho'
  obtain ⟨r, -, hiff⟩ := hpasses.designated_iff hr'
  exact ((hiff status).mp hstatus).2

end Policy

namespace Assembly

/-- Where the designations of the base document are valid, those of a document that is
built on it are, and so are those of what a policy without edits leaves of it. What is left
is what the walk leaves of the rows of the document, node by node; and an operation that is
left has lost its designation if and only if the response is gone. -/
theorem designations_valid (settings : Settings) (strategy : IdStrategy) (base : OpenApi)
    (i : Inventory) (depth : Nat) (d : OpenApi) (hbase : base.WellDesignated)
    (h : build settings strategy base i depth = .ok d) :
    d.WellDesignated ∧
    ∀ (σ : Type) (p : Policy (StateM σ)), p.EditsNothing → ∀ s : σ,
      ((p.prune d).run s).1.WellDesignated ∧
      (∃ s', p.PassesRows s d.rows ((p.prune d).run s).1.rows s') ∧
      ∀ o', ((p.prune d).run s).1.Includes (.operation o') → ∃ o, d.Includes (.operation o) ∧
        (∃ t t', p.Passes t (.operation o) (some (.operation o')) t') ∧
        ∀ r', o'.responses = some r' → ∃ r, o.responses = some r ∧ ∀ status,
          r'.designated = some status ↔
            r.designated = some status ∧ r'.entries.contains status = true := by
  refine ⟨wellDesignated_build hbase h, fun σ p hp s => ?_⟩
  obtain ⟨s', hpasses⟩ := hp.passes d s
  refine ⟨hpasses.wellDesignated, ⟨s', hpasses⟩, fun o' ho' => ?_⟩
  obtain ⟨o, ho, t, t', hleft⟩ := hpasses.of_includes ho'
  exact ⟨o, ho, ⟨t, t', hleft⟩, fun r' hr' => hleft.designated_iff hr'⟩

section Witness

open Policy

def ordersBase : OpenApi where
  paths := .ofRows [("/orders", { slots := { get := some { responses := some {
    entries := .ofRows [("200", {}), ("404", {})], designated := some "404" } } } })]
  components := some { callbacks := .ofRows [("shipped", {
    expressions := .ofRows [("url", { slots := { post := some { responses := some {
      entries := .ofRows [("202", {})], designated := some "202" } } } })] })] }

theorem ordersBase_wellDesignated : ordersBase.WellDesignated := by
  have hplain : ∀ r : Responses, r.Valid →
      (Node.operation { responses := some r }).WellDesignated := fun r hr =>
    Node.wellDesignated_operation_iff.mpr
      ⟨fun q hq => Option.some.inj hq ▸ hr, Ordered.all_empty _⟩
  refine OpenApi.wellDesignated_iff.mpr ⟨?_, ?_⟩
  · refine List.forall_mem_singleton.mpr fun m o ho => ?_
    cases m <;> cases ho
    exact hplain _ (by rintro status ⟨⟩; rfl)
  · refine List.forall_mem_singleton.mpr (Node.wellDesignated_callback ?_)
    refine List.forall_mem_singleton.mpr fun m o ho => ?_
    cases m <;> cases ho
    exact hplain _ (by rintro status ⟨⟩; rfl)

def ordersInventory : Inventory where
  endpoints := [{ path := some "orders", handlers := [{ name := "clear", verb := some .delete }] }]

def ordersDocument : OpenApi :=
  (build {} IdStrategy.byHandler ordersBase ordersInventory).toOption.getD {}

theorem orders_built :
    build {} IdStrategy.byHandler ordersBase ordersInventory = .ok ordersDocument := by
  have hok : (build {} IdStrategy.byHandler ordersBase ordersInventory).toOption.isSome = true := by
    decide +kernel
  rw [ordersDocument]
  exact Except.eq_ok_getD hok {}

def everySecond : Policy (StateM Nat) :=
  { keepAll with response := fun r n => (if n % 2 = 0 then some r else none, n + 1) }

theorem everySecond_editsNothing : everySecond.EditsNothing where
  document _ _ := rfl
  answer n s a h := by
    cases n with
    | response r =>
      have hrun : ((everySecond.asks (.response r)).run s).1 =
          (if s % 2 = 0 then some r else none).map .response := rfl
      rw [hrun] at h
      split at h
      · exact (Option.some.inj h).symm
      · cases h
    | _ => exact (Option.some.inj h).symm

/-- The response of the callback and the second one below the path are left, so that the
handler's operation has no default any more. -/
theorem designations_valid_orders :
    ordersBase.WellDesignated ∧
    build {} IdStrategy.byHandler ordersBase ordersInventory = .ok ordersDocument ∧
    everySecond.EditsNothing ∧
    (ordersDocument.operations.map fun row => row.2.2.responses.bind (·.designated)) =
      [some "404", some "204"] ∧
    (((everySecond.prune ordersDocument).run 0).1.operations.map
        fun row => row.2.2.responses.bind (·.designated)) = [some "404", none] ∧
    ordersDocument.WellDesignated ∧
    ((everySecond.prune ordersDocument).run 0).1.WellDesignated :=
  have hvalid := designations_valid {} IdStrategy.byHandler ordersBase ordersInventory usualDepth
    ordersDocument ordersBase_wellDesignated orders_built
  ⟨ordersBase_wellDesignated, orders_built, everySecond_editsNothing, by decide +kernel,
    by decide +kernel, hvalid.1, (hvalid.2 Nat everySecond everySecond_editsNothing 0).1⟩

end Witness

end Assembly

end ApiDoc
