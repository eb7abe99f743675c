import ApiDoc.Proofs.Assembly.Handlers
import ApiDoc.Proofs.Assembly.References
import ApiDoc.Proofs.Inference.Handles

/-!
# References of a built document

When an inventory is built and none of its notes names a reference itself, the
references of all that was generated lead to component schemas of the document.
Components are registered last, so the names are those that the arena has at the
end of the run.
-/

set_option autoImplicit false

namespace ApiDoc.Assembly

open Inference (Gen Arena Steps giving resolving level_resolves)

variable {names : List String} {base : OpenApi}

namespace Step

variable {α β : Type} {Q : α → Prop} {R : β → Prop}

/-- What a step gives when all components at the end have one of the names. -/
def Gives (names : List String) (Q : α → Prop) (g : Step α) : Prop :=
  ∀ d x d', d.arena.Sound → g.outcome d = (.ok x, d') → Steps d.arena d'.arena ∧
    (d'.arena.names ⊆ names → d.arena.Resolved names → d'.arena.Resolved names ∧ Q x)

theorem Gives.pure {x : α} (h : Q x) : Gives names Q (Pure.pure x : Step α) := by
  intro d y d' hs ho
  cases ho
  exact ⟨⟨Arena.Grows.refl _, hs⟩, fun _ hr => ⟨hr, h⟩⟩

theorem Gives.bind {g : Step α} {k : α → Step β} (hg : Gives names Q g)
    (hk : ∀ x, Gives names (fun y => Q x → R y) (k x)) : Gives names R (g >>= k) := by
  intro d y d'' hs ho
  obtain ⟨x, d', h₁, h₂⟩ := ExceptT.outcome_bind_eq_ok ho
  obtain ⟨hd', hx⟩ := hg d x d' hs h₁
  obtain ⟨hd'', hy⟩ := hk x d' y d'' hd'.2 h₂
  refine ⟨hd'.trans hd'', fun hn hr => ?_⟩
  obtain ⟨hr', hx⟩ := hx (fun name hm => hn (hd''.1.names_subset hm)) hr
  obtain ⟨hr'', hy⟩ := hy hn hr'
  exact ⟨hr'', hy hx⟩

theorem Quiet.gives {g : Step α} (h : Quiet g) : Gives names (fun _ => True) g := by
  intro d x d' hs ho
  have harena := (h d).2
  rw [ho] at harena
  rw [harena]
  exact ⟨⟨Arena.Grows.refl _, hs⟩, fun _ hr => ⟨hr, trivial⟩⟩

theorem gives_gen {g : Gen α} (h : Inference.Gives names Q g) : Gives names Q (gen g) := by
  intro d x d' hs ho
  have hg := (outcome_gen_eq ho).1
  exact ⟨Inference.steps_of_outcome h.steps hs hg, fun hn hr => h.result _ x _ hs hg hn hr⟩

end Step

/-- The operation of a handler refers to named components. -/
theorem gives_operation {a : Assembly} (hc : Unreferenced (Catalog.schemaNotes a.catalog))
    {e : Endpoint} {h : Handler} (he : Unreferenced e.schemaNotes) (hh : Unreferenced h.schemaNotes)
    (n : OperationNote) (id : String) :
    Step.Gives names (fun o => Within (PointsTo names) o.references) (a.operation e h n id) := by
  have hi : ∀ t, True → (giving names).rel ((resolving (PointsTo names)).Describes t) (a.infer t)
      (a.infer t) := (level_resolves hc a.depth).schemaOf
  have hall : ∀ {notes}, Unreferenced notes → Admissible (PointsTo names) notes :=
    admissible_of_unreferenced
  exact (Step.quiet_check _).gives.bind fun _ => (a.quiet_operationTags e h id).gives.bind fun _ =>
    (Step.quiet_check _).gives.bind fun _ =>
      (Step.gives_gen (related_parameters hi (hall hc) (hall hh))).bind fun _ =>
        (Step.gives_gen (related_requestBody hi e (hall hh))).bind fun _ =>
          (Step.gives_gen (related_responses hi a.catalog (hall he) (hall hh))).bind fun _ =>
            (Step.gives_gen (related_callbacks hi (hall hh))).bind fun _ =>
              Step.Gives.pure fun hcallbacks hresponses hbody hparameters _ _ _ =>
                Operation.within_iff.mpr ⟨hparameters, hbody,
                  fun _ hr => Option.some.inj hr ▸ hresponses, hcallbacks⟩

/-! ### Drafts -/

structure Generated (names : List String) (base : OpenApi) (slots : List Slot) (d : Draft) :
    Prop where
  arena : d.arena.Resolved names
  schemas : d.document.componentsOrNew.schemas = base.componentsOrNew.schemas
  filled : Filled (fun o => Within (PointsTo names) o.references) base slots d.document

theorem Generated.frame {slots : List Slot} {d d' : Draft} (h : Generated names base slots d)
    (hf : Frame d d') (ha : d'.arena.Resolved names) : Generated names base slots d' where
  arena := ha
  schemas := hf.schemas.trans h.schemas
  filled := h.filled.of_paths hf.paths

structure Generates (names : List String) (base : OpenApi) (new : List Slot) (d d' : Draft) :
    Prop where
  steps : Steps d.arena d'.arena
  generated : d'.arena.names ⊆ names → ∀ slots, Generated names base slots d →
    Generated names base (new ++ slots) d'

theorem Generates.trans {new new' : List Slot} {d d' d'' : Draft}
    (h : Generates names base new d d') (h' : Generates names base new' d' d'') :
    Generates names base (new ++ new') d d'' where
  steps := h.steps.trans h'.steps
  generated := fun hn slots hd => by
    have hd' := h.generated (fun name hm => hn (h'.steps.1.names_subset hm)) slots hd
    have hd'' := h'.generated hn _ hd'
    refine ⟨hd''.arena, hd''.schemas, hd''.filled.congr fun slot => ?_⟩
    simp only [List.mem_append]
    exact or_left_comm.trans or_assoc.symm

theorem generates_quiet {g : Step Unit} (hg : Step.Quiet g) {d d' : Draft} (hs : d.arena.Sound)
    (ho : g.outcome d = (.ok (), d')) : Generates names base [] d d' := by
  have hq := hg d
  rw [ho] at hq
  refine ⟨by rw [hq.2]; exact ⟨Arena.Grows.refl _, hs⟩, fun _ slots hd => hd.frame hq.1 ?_⟩
  rw [hq.2]
  exact hd.arena

section

variable {a : Assembly} (hc : Unreferenced (Catalog.schemaNotes a.catalog))
variable {basePath : Option String} {e : Endpoint} (he : Unreferenced e.schemaNotes)

include hc he

theorem generates_addHandler {h : Handler} (hh : Unreferenced h.schemaNotes) {d d' : Draft}
    (hs : d.arena.Sound) (ho : (a.addHandler basePath e h).outcome d = (.ok (), d')) :
    Generates names base (slotOf? basePath e h).toList d d' := by
  cases handlerStep_of_outcome ho with
  | passed hslot =>
    rw [hslot]
    exact ⟨⟨Arena.Grows.refl _, hs⟩, fun _ _ hd => hd⟩
  | @filled slot o b hslot hdesc =>
    rw [hslot]
    have hoperation : Step.Gives names _ (a.operation e h (h.operation.getD {})
      (claimedId d (a.candidate e h slot))) := gives_operation hc he hh _ _
    obtain ⟨hsteps, hgives⟩ := hoperation (claimed d (a.candidate e h slot)) o b hs hdesc
    refine ⟨hsteps, fun hn slots hd => ?_⟩
    have hclaimed : Generated names base slots (claimed d (a.candidate e h slot)) :=
      ⟨hd.arena, hd.schemas, hd.filled⟩
    obtain ⟨hb, hrefs⟩ := hgives hn hd.arena
    have hdescribed := hclaimed.frame (frame_described hdesc) hb
    exact ⟨hdescribed.arena, hdescribed.schemas, hdescribed.filled.placed a slot hrefs⟩

theorem generates_addHandlers {hs : List Handler} (hh : ∀ h ∈ hs, Unreferenced h.schemaNotes)
    {d d' : Draft} (hd : d.arena.Sound)
    (ho : (a.addHandlers basePath e hs).outcome d = (.ok (), d')) :
    Generates names base (hs.filterMap (slotOf? basePath e)) d d' := by
  induction hs generalizing d with
  | nil =>
    cases ho
    exact ⟨⟨Arena.Grows.refl _, hd⟩, fun _ _ h => h⟩
  | cons h hs ih =>
    obtain ⟨hhead, hrest⟩ := List.forall_mem_cons.mp hh
    obtain ⟨_, d₁, h₁, h₂⟩ := ExceptT.outcome_bind_eq_ok ho
    have hone : Generates names base _ d d₁ := generates_addHandler hc he hhead hd h₁
    have hall := hone.trans (ih hrest hone.steps.2 h₂)
    cases hslot : slotOf? basePath e h <;> simpa [hslot] using hall

end

def slotsOf (basePath : Option String) (es : List Endpoint) : List Slot :=
  es.flatMap fun e => e.handlers.filterMap (slotOf? basePath e)

theorem generates_addEndpoints {a : Assembly} (hc : Unreferenced (Catalog.schemaNotes a.catalog))
    (basePath : Option String) {es : List Endpoint} (he : ∀ e ∈ es, Unreferenced e.schemaNotes)
    {d d' : Draft} (hd : d.arena.Sound)
    (ho : (a.addEndpoints basePath es).outcome d = (.ok (), d')) :
    Generates names base (slotsOf basePath es) d d' := by
  induction es generalizing d with
  | nil =>
    cases ho
    exact ⟨⟨Arena.Grows.refl _, hd⟩, fun _ _ h => h⟩
  | cons e es ih =>
    obtain ⟨hhead, hrest⟩ := List.forall_mem_cons.mp he
    have hhandlers := hhead
    rw [Endpoint.schemaNotes, unreferenced_append, unreferenced_flatMap, unreferenced_flatMap]
      at hhandlers
    obtain ⟨_, d₂, h₂, h₃⟩ := ExceptT.outcome_bind_eq_ok ho
    obtain ⟨_, d₁, h₁, h₂⟩ := ExceptT.outcome_bind_eq_ok h₂
    have htags : Generates names base [] d d₁ := generates_quiet (quiet_defineTags e.tags) hd h₁
    have hone := htags.trans (generates_addHandlers hc hhead hhandlers.2 htags.steps.2 h₂)
    exact hone.trans (ih hrest hone.steps.2 h₃)

/-! ### The finished document -/

theorem slot?_finish (a : Assembly) (d : Draft) (slot : Slot) :
    (a.finish d).slot? slot = (d.document.slot? slot).map withResponses := by
  simp only [finish, OpenApi.slot?, Ordered.get?_mapValues]
  cases d.document.paths.get? slot.1 with
  | none => rfl
  | some item => cases hm : slot.2 <;> rfl

theorem within_withResponses {known : String → Prop} {o : Operation}
    (h : Within known o.references) : Within known (withResponses o).references := by
  have h := Operation.within_iff.mp h
  refine Operation.within_iff.mpr { h with responses := fun rs hrs => ?_ }
  cases ho : o.responses with
  | none =>
    simp only [withResponses, ho] at hrs
    cases hrs
    exact within_nil
  | some own =>
    simp only [withResponses, ho] at hrs
    cases hrs
    exact h.responses _ ho

/-- Registered components stand beside those that were there. -/
theorem get?_register (cs : List Inference.Component) (m : Ordered Schema) (name : String) :
    (cs.foldl (fun m c => m.putNew c.name c.schema) m).get? name =
      (m.get? name).or ((cs.find? (·.name = name)).map (·.schema)) := by
  induction cs generalizing m with
  | nil => simp
  | cons c cs ih =>
    rw [List.foldl_cons, ih, Ordered.get?_putNew, Option.or_assoc, List.find?_cons]
    by_cases hn : c.name = name
    · simp [hn]
    · simp [hn, Ne.symm hn]

/-- Where no component was opened, there is nothing to register. -/
theorem componentsOrNew_finish (a : Assembly) (d : Draft) :
    (a.finish d).componentsOrNew = d.arena.register d.document.componentsOrNew := by
  by_cases hz : d.arena.size = 0
  · have hempty : d.arena.components = [] := List.length_eq_zero_iff.mp hz
    simp [finish, hz, OpenApi.componentsOrNew, Arena.register, hempty]
  · simp [finish, hz, OpenApi.componentsOrNew]

theorem get?_schemas_finish (a : Assembly) (d : Draft) (name : String) :
    (a.finish d).componentsOrNew.schemas.get? name =
      (d.document.componentsOrNew.schemas.get? name).or (d.arena.named? name) := by
  rw [componentsOrNew_finish]
  exact get?_register d.arena.components _ name

theorem names_subset_finish (a : Assembly) (d : Draft) :
    d.arena.names ⊆ (a.finish d).componentsOrNew.schemas.keys := by
  intro name hn
  obtain ⟨c, hc, rfl⟩ := List.mem_map.mp hn
  have hfound : ((d.arena.components.find? (·.name = c.name))).isSome := by
    rw [List.find?_isSome]
    exact ⟨c, hc, by simp⟩
  obtain ⟨c', hc'⟩ := Option.isSome_iff_exists.mp hfound
  rw [Ordered.mem_keys_iff, get?_schemas_finish]
  cases hm : d.document.componentsOrNew.schemas.get? c.name with
  | none => exact ⟨c'.schema, by simp [Arena.named?, hc']⟩
  | some s => exact ⟨s, rfl⟩

/-- What was built is a draft that has taken in the whole inventory. -/
theorem build_run {settings : Settings} {strategy : IdStrategy} {base d : OpenApi} {i : Inventory}
    {depth : Nat} (h : build settings strategy base i depth = .ok d) :
    ∃ last, (addInventory { settings, strategy, catalog := i.types, depth } i).outcome
      (begin base) = (.ok (), last) ∧
      d = finish { settings, strategy, catalog := i.types, depth } last := by
  unfold build at h
  dsimp only at h
  split at h
  · rename_i last hrun
    cases h
    exact ⟨last, hrun, rfl⟩
  · cases h

theorem build_eq_ok {settings : Settings} {strategy : IdStrategy} {base d : OpenApi} {i : Inventory}
    {depth : Nat} (h : build settings strategy base i depth = .ok d) :
    ∃ (a : Assembly) (last : Draft), a.catalog = i.types ∧
      (a.addInventory i).outcome (begin base) = (.ok (), last) ∧ d = a.finish last := by
  obtain ⟨last, hrun, hd⟩ := build_run h
  exact ⟨_, last, rfl, hrun, hd⟩

/-- The operations that were generated, and the component schemas that were not
there before, refer to component schemas of the document. -/
theorem references_closed (settings : Settings) (strategy : IdStrategy) (base : OpenApi)
    (i : Inventory) (hn : Unreferenced i.schemaNotes) (depth : Nat) (d : OpenApi)
    (h : build settings strategy base i depth = .ok d) :
    (∀ slot ∈ slotsOf i.basePath i.endpoints, ∃ o, d.slot? slot = some o ∧
      ∀ r ∈ o.references, ∃ name ∈ d.componentsOrNew.schemas.keys,
        r = ComponentKind.schemas.pointer name) ∧
    (∀ slot, slot ∉ slotsOf i.basePath i.endpoints →
      d.slot? slot = (base.slot? slot).map withResponses) ∧
    ∀ name s, base.componentsOrNew.schemas.get? name = none →
      d.componentsOrNew.schemas.get? name = some s →
      ∀ r ∈ s.references, ∃ other ∈ d.componentsOrNew.schemas.keys,
        r = ComponentKind.schemas.pointer other := by
  obtain ⟨a, last, hcat, hrun, rfl⟩ := build_eq_ok h
  rw [Inventory.schemaNotes, unreferenced_append, unreferenced_flatMap, ← hcat] at hn
  obtain ⟨_, d₁, h₁, hrun⟩ := ExceptT.outcome_bind_eq_ok hrun
  obtain ⟨_, d₂, h₂, h₃⟩ := ExceptT.outcome_bind_eq_ok hrun
  have hdefinition : Generates last.arena.names base [] (begin base) d₁ :=
    generates_quiet (quiet_applyDefinition i.definition) Arena.sound_empty h₁
  have hsecurity : Generates last.arena.names base [] d₁ d₂ :=
    generates_quiet (quiet_addSecuritySchemes i.securitySchemes) hdefinition.steps.2 h₂
  have hendpoints : Generates last.arena.names base (slotsOf i.basePath i.endpoints) d₂ last :=
    generates_addEndpoints hn.1 i.basePath hn.2 hsecurity.steps.2 h₃
  have hstart : Generated last.arena.names base [] (begin base) :=
    ⟨List.forall_mem_nil _, rfl, Filled.start⟩
  have hlast := ((hdefinition.trans hsecurity).trans hendpoints).generated
    (fun _ hm => hm) [] hstart
  rw [List.nil_append, List.nil_append, List.append_nil] at hlast
  -- what pointed to a name of the arena points to a key of the document
  have hkeys : ∀ {rs : List String}, Within (PointsTo last.arena.names) rs →
      Within (PointsTo (a.finish last).componentsOrNew.schemas.keys) rs := by
    intro rs hrs r hr
    obtain ⟨name, hname, hr⟩ := hrs r hr
    exact ⟨name, a.names_subset_finish last hname, hr⟩
  refine ⟨fun slot hs => ?_, fun slot hs => ?_, fun name s hbase hs => ?_⟩
  · obtain ⟨o, ho, hrefs⟩ := hlast.filled.holds slot hs
    exact ⟨withResponses o, by rw [slot?_finish, ho]; rfl, hkeys (within_withResponses hrefs)⟩
  · rw [slot?_finish, hlast.filled.kept slot hs]
  · rw [get?_schemas_finish, hlast.schemas, hbase, Option.none_or] at hs
    obtain ⟨c, hc, rfl⟩ := Option.map_eq_some_iff.mp hs
    exact hkeys (hlast.arena c (List.mem_of_find?_eq_some hc))

section Witness

open Inference (itemType pageType)

def shopBase : OpenApi where
  paths := Ordered.ofRows [("/health", { slots := { get := some {} } })]
  components := some { schemas := Ordered.ofRows [("Item", {})] }

def shop : Inventory where
  types := Catalog.ofList [
    { name := "Item"
      shape := .struct [{ name := "page", type := pageType itemType,
                          schema := some { title := some "The page of the item" } }] },
    { name := "Page", generics := ["T"]
      shape := .struct [{ name := "rows", type := ⟨"Vec", [⟨"T", []⟩]⟩ }] }]
  endpoints := [
    { path := some "items"
      handlers := [{ name := "list", verb := some .get, returnType := some (pageType itemType) }] }]

def shopDocument : OpenApi :=
  match build {} IdStrategy.byHandler shopBase shop with
  | .ok d => d
  | .error _ => {}

theorem shop_built : build {} IdStrategy.byHandler shopBase shop = .ok shopDocument := by
  have hok : (build {} IdStrategy.byHandler shopBase shop).toOption.isSome = true := by
    decide +kernel
  unfold shopDocument
  cases hb : build {} IdStrategy.byHandler shopBase shop with
  | ok d => rfl
  | error f =>
    rw [hb] at hok
    cases hok

theorem references_closed_shop :
    Unreferenced shop.schemaNotes ∧
    build {} IdStrategy.byHandler shopBase shop = .ok shopDocument ∧
    shopDocument.componentsOrNew.schemas.keys = ["Item", "PageItem"] ∧
    (∀ slot ∈ slotsOf shop.basePath shop.endpoints, ∃ o, shopDocument.slot? slot = some o ∧
      ∀ r ∈ o.references, ∃ name ∈ shopDocument.componentsOrNew.schemas.keys,
        r = ComponentKind.schemas.pointer name) ∧
    (∀ slot, slot ∉ slotsOf shop.basePath shop.endpoints →
      shopDocument.slot? slot = (shopBase.slot? slot).map withResponses) ∧
    ∀ name s, shopBase.componentsOrNew.schemas.get? name = none →
      shopDocument.componentsOrNew.schemas.get? name = some s →
      ∀ r ∈ s.references, ∃ other ∈ shopDocument.componentsOrNew.schemas.keys,
        r = ComponentKind.schemas.pointer other :=
  have hnone : Unreferenced shop.schemaNotes := by
    unfold Unreferenced
    decide
  ⟨hnone, shop_built, by decide +kernel,
    references_closed {} IdStrategy.byHandler shopBase shop hnone usualDepth shopDocument
      shop_built⟩

end Witness

end ApiDoc.Assembly
