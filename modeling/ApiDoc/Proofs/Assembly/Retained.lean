import ApiDoc.Proofs.Assembly.Build

/-!
# What the base document keeps

Every step of an assembly adds to the document and leaves what is there. Between two
drafts of a run all rows of tables and all elements of lists stay where they are, and
of a path item nothing changes but slots for which handlers are and servers that it
did not have. Finishing gives every operation responses, may replace the servers of
the document, and settles title and version.
-/

set_option autoImplicit false

namespace ApiDoc

namespace Ordered

variable {α : Type} {m m' : Ordered α}

def Continues (m m' : Ordered α) : Prop := m.entries <+: m'.entries

theorem Continues.refl (m : Ordered α) : m.Continues m := List.prefix_refl _

theorem Continues.trans {m'' : Ordered α} (h : m.Continues m') (h' : m'.Continues m'') :
    m.Continues m'' := List.IsPrefix.trans h h'

theorem continues_putNew (m : Ordered α) (key : String) (value : α) :
    m.Continues (m.putNew key value) := by
  rw [Continues, entries_putNew]
  split
  · exact List.prefix_refl _
  · exact List.prefix_append _ _

theorem continues_foldl_putNew {β : Type} (key : β → String) (value : β → α) (bs : List β)
    (m : Ordered α) : m.Continues (bs.foldl (fun m b => m.putNew (key b) (value b)) m) := by
  induction bs generalizing m with
  | nil => exact .refl m
  | cons b bs ih => exact (continues_putNew m _ _).trans (ih _)

end Ordered

namespace Assembly

structure ComponentsKept (c c' : Components) : Prop where
  schemas : c.schemas.Continues c'.schemas
  responses : c.responses.Continues c'.responses
  parameters : c.parameters.Continues c'.parameters
  examples : c.examples.Continues c'.examples
  requestBodies : c.requestBodies.Continues c'.requestBodies
  headers : c.headers.Continues c'.headers
  securitySchemes : c.securitySchemes.Continues c'.securitySchemes
  links : c.links.Continues c'.links
  callbacks : c.callbacks.Continues c'.callbacks
  extensions : c.extensions.Continues c'.extensions

/-- A path item is as it was, except for the operations in some slots; the others may
have changed in a given way. Servers come only where none were, and from the settings. -/
structure ItemKept (settings : Settings) (slots : List Slot) (change : Operation → Operation)
    (path : String) (i j : PathItem) : Prop where
  reference : j.reference = i.reference
  summary : j.summary = i.summary
  description : j.description = i.description
  parameters : j.parameters = i.parameters
  extensions : j.extensions = i.extensions
  operations : ∀ m, (path, m) ∉ slots → j.slots.at? m = (i.slots.at? m).map change
  servers : j.servers = i.servers ∨ i.servers = [] ∧ ∃ urls,
    settings.list? (Settings.pathServersKey path) = some urls ∧ j.servers = urls.map serverAt

structure Retains (settings : Settings) (slots : List Slot) (d d' : OpenApi) : Prop where
  components : ComponentsKept d.componentsOrNew d'.componentsOrNew
  items : ∀ path i, d.paths.get? path = some i → ∃ j, d'.paths.get? path = some j ∧
    ItemKept settings slots id path i j
  order : d.paths.keys <+: d'.paths.keys
  info : ∀ i, d.info = some i → d'.info = some i
  externalDocs : ∀ e, d.externalDocs = some e → d'.externalDocs = some e
  extensions : d.extensions.Continues d'.extensions
  tags : d.tags <+: d'.tags
  security : d.security <+: d'.security
  servers : d.servers <+: d'.servers

namespace ComponentsKept

theorem refl (c : Components) : ComponentsKept c c :=
  ⟨.refl _, .refl _, .refl _, .refl _, .refl _, .refl _, .refl _, .refl _, .refl _, .refl _⟩

theorem trans {c c' c'' : Components} (h : ComponentsKept c c') (h' : ComponentsKept c' c'') :
    ComponentsKept c c'' where
  schemas := h.schemas.trans h'.schemas
  responses := h.responses.trans h'.responses
  parameters := h.parameters.trans h'.parameters
  examples := h.examples.trans h'.examples
  requestBodies := h.requestBodies.trans h'.requestBodies
  headers := h.headers.trans h'.headers
  securitySchemes := h.securitySchemes.trans h'.securitySchemes
  links := h.links.trans h'.links
  callbacks := h.callbacks.trans h'.callbacks
  extensions := h.extensions.trans h'.extensions

end ComponentsKept

namespace ItemKept

variable {settings : Settings} {slots : List Slot} {change : Operation → Operation}
  {path : String}

theorem refl (i : PathItem) : ItemKept settings slots id path i i :=
  ⟨rfl, rfl, rfl, rfl, rfl, fun _ _ => (Option.map_id_apply).symm, Or.inl rfl⟩

theorem trans {i j k : PathItem} (h : ItemKept settings slots id path i j)
    (h' : ItemKept settings slots change path j k) :
    ItemKept settings slots change path i k where
  reference := h'.reference.trans h.reference
  summary := h'.summary.trans h.summary
  description := h'.description.trans h.description
  parameters := h'.parameters.trans h.parameters
  extensions := h'.extensions.trans h.extensions
  operations m hm := by rw [h'.operations m hm, h.operations m hm, Option.map_id_apply]
  servers := by
    rcases h.servers with hi | ⟨hi, hconfigured⟩
    · rcases h'.servers with hj | ⟨hj, hurls⟩
      · exact Or.inl (hj.trans hi)
      · exact Or.inr ⟨hi ▸ hj, hurls⟩
    · rcases h'.servers with hj | ⟨-, hurls⟩
      · exact Or.inr ⟨hi, hj ▸ hconfigured⟩
      · exact Or.inr ⟨hi, hurls⟩

end ItemKept

namespace Retains

variable {settings : Settings} {slots : List Slot}

theorem refl (d : OpenApi) : Retains settings slots d d where
  components := .refl _
  items _ i hi := ⟨i, hi, .refl i⟩
  order := List.prefix_refl _
  info _ h := h
  externalDocs _ h := h
  extensions := .refl _
  tags := List.prefix_refl _
  security := List.prefix_refl _
  servers := List.prefix_refl _

theorem trans (d d' d'' : OpenApi) (h : Retains settings slots d d')
    (h' : Retains settings slots d' d'') : Retains settings slots d d'' where
  components := h.components.trans h'.components
  items path i hi := by
    obtain ⟨j, hj, hij⟩ := h.items path i hi
    obtain ⟨k, hk, hjk⟩ := h'.items path j hj
    exact ⟨k, hk, hij.trans hjk⟩
  order := h.order.trans h'.order
  info i hi := h'.info i (h.info i hi)
  externalDocs e he := h'.externalDocs e (h.externalDocs e he)
  extensions := h.extensions.trans h'.extensions
  tags := h.tags.trans h'.tags
  security := h.security.trans h'.security
  servers := h.servers.trans h'.servers

end Retains

/-! ### Steps and relations between documents -/

namespace Step

variable {α β : Type} {R : OpenApi → OpenApi → Prop}

def Moves (R : OpenApi → OpenApi → Prop) (g : Step α) : Prop :=
  ∀ d, R d.document (g.outcome d).2.document

theorem Moves.bind (trans : ∀ a b c, R a b → R b c → R a c) {g : Step α} {k : α → Step β}
    (hg : Moves R g) (hk : ∀ x, Moves R (k x)) : Moves R (g >>= k) := fun d =>
  ExceptT.outcome_bind_chain (R := fun (d d' : Draft) => R d.document d'.document)
    (fun _ _ _ => trans _ _ _) (hg d) fun x => hk x _

theorem moves_edit {f : OpenApi → OpenApi} (h : ∀ doc, R doc (f doc)) : Moves R (edit f) :=
  fun d => h d.document

/-- A step that leaves the document alone. -/
theorem moves_still (refl : ∀ a, R a a) {g : Step α}
    (h : ∀ d, (g.outcome d).2.document = d.document) : Moves R g := by
  intro d
  rw [h d]
  exact refl _

end Step

open Step

def PlacesBy (R : OpenApi → OpenApi → Prop) (a : Assembly) (basePath : Option String)
    (e : Endpoint) (h : Handler) : Prop :=
  ∀ {slot : Slot} {d b : Draft} {o : Operation}, slotOf? basePath e h = some slot →
    a.described e h slot d = (.ok o, b) → R b.document (a.place slot.1 slot.2 o b.document)

section Tags

variable {R : OpenApi → OpenApi → Prop} (refl : ∀ d, R d d)
  (trans : ∀ a b c, R a b → R b c → R a c) (tag : ∀ d t, R d (d.addTag t))

include refl tag

theorem moves_defineTag (t : Option Tag) : Moves R (defineTag t) := by
  cases t with
  | none => exact moves_still refl fun _ => rfl
  | some t => exact moves_edit fun doc => tag doc t

include trans

theorem moves_defineTags (notes : List TagNote) : Moves R (defineTags notes) := by
  induction notes with
  | nil => exact moves_still refl fun _ => rfl
  | cons n ns ih =>
    exact (moves_still refl fun _ => rfl).bind trans fun t =>
      (moves_defineTag refl tag t).bind trans fun _ => ih

theorem moves_mention (own : List TagNote) (name : String) : Moves R (mention own name) := by
  refine (moves_still refl fun _ => rfl).bind trans fun d => ?_
  split
  · exact moves_defineTags refl trans tag _
  · exact moves_still refl fun _ => rfl

theorem moves_resolveTag (own : List TagNote) (n : TagNote) : Moves R (resolveTag own n) := by
  refine (moves_still refl fun _ => rfl).bind trans fun t => ?_
  cases t with
  | some t =>
    exact (moves_defineTag refl tag _).bind trans fun _ => moves_still refl fun _ => rfl
  | none =>
    exact (moves_mention refl trans tag own _).bind trans fun _ => moves_still refl fun _ => rfl

theorem moves_resolveTags (own : List TagNote) (names : List String) (notes : List TagNote) :
    Moves R (resolveTags own names notes) := by
  induction notes generalizing names with
  | nil => exact moves_still refl fun _ => rfl
  | cons n ns ih => exact (moves_resolveTag refl trans tag own n).bind trans fun name => ih _

theorem moves_operationTags (a : Assembly) (e : Endpoint) (h : Handler) (id : String) :
    Moves R (a.operationTags e h id) := by
  unfold operationTags
  split
  · exact moves_still refl fun _ => rfl
  · exact moves_resolveTags refl trans tag _ _ _

/-- Describing an operation does nothing to a document but define tags. -/
theorem moves_operation (a : Assembly) (e : Endpoint) (h : Handler) (n : OperationNote)
    (id : String) : Moves R (a.operation e h n id) := by
  have still : ∀ {α : Type} (g : Step α), (∀ d, (g.outcome d).2.document = d.document) →
      Moves R g := fun _ => moves_still refl
  exact operation_induct (P := Moves R) (.bind trans) (fun _ => still _ fun _ => rfl)
    (fun _ => still _ fun _ => rfl) (moves_operationTags refl trans tag a e h id)
    (still _ fun _ => rfl) (still _ fun _ => rfl) (still _ fun _ => rfl) (still _ fun _ => rfl) n

section Handlers

variable {a : Assembly} {basePath : Option String} {e : Endpoint}

theorem moves_described {h : Handler} {slot : Slot} {d b : Draft} {r : Except Failure Operation}
    (ho : a.described e h slot d = (r, b)) : R d.document b.document := by
  have hdescribed := moves_operation refl trans tag a e h (h.operation.getD {})
    (claimedId d (a.candidate e h slot)) (claimed d (a.candidate e h slot))
  change R _ (a.described e h slot d).2.document at hdescribed
  rwa [ho] at hdescribed

theorem moves_addHandler {h : Handler} (place : PlacesBy R a basePath e h) :
    Moves R (a.addHandler basePath e h) := by
  intro d
  cases ho : (a.addHandler basePath e h).outcome d with
  | mk r d' =>
    cases handlerStep_of_outcome ho with
    | passed _ => exact refl _
    | failed _ hdesc => exact moves_described refl trans tag hdesc
    | filled hslot hdesc =>
      exact trans _ _ _ (moves_described refl trans tag hdesc) (place hslot hdesc)

/-- Handlers define tags and put operations into their slots. -/
theorem moves_addHandlers {hs : List Handler} (place : ∀ h ∈ hs, PlacesBy R a basePath e h) :
    Moves R (a.addHandlers basePath e hs) := by
  induction hs with
  | nil => exact moves_still refl fun _ => rfl
  | cons h hs ih =>
    obtain ⟨hhead, hrest⟩ := List.forall_mem_cons.mp place
    exact (moves_addHandler refl trans tag hhead).bind trans fun _ => ih hrest

theorem moves_addEndpoint (place : ∀ h ∈ e.handlers, PlacesBy R a basePath e h) :
    Moves R (a.addEndpoint basePath e) :=
  (moves_defineTags refl trans tag e.tags).bind trans fun _ =>
    moves_addHandlers refl trans tag place

end Handlers

end Tags

/-! ### Parts that stay as they are -/

section Parts

variable {α β π : Type} {part : OpenApi → π}

abbrev Keeps (part : OpenApi → π) (g : Step α) : Prop := Moves (fun d d' => part d' = part d) g

theorem Keeps.bind {g : Step α} {k : α → Step β} (hg : Keeps part g)
    (hk : ∀ x, Keeps part (k x)) : Keeps part (g >>= k) :=
  Moves.bind (fun _ _ _ h h' => h'.trans h) hg hk

theorem keeps_still {g : Step α} (h : ∀ d, (g.outcome d).2.document = d.document) :
    Keeps part g := moves_still (R := fun d d' => part d' = part d) (fun _ => rfl) h

theorem Keeps.eq {g : Step α} (hg : Keeps part g) {d d' : Draft} {x : α}
    (ho : g.outcome d = (.ok x, d')) : part d'.document = part d.document := by
  have hpart := hg d
  rwa [ho] at hpart

theorem keeps_defineInfo (h : ∀ (d : OpenApi) info, part { d with info } = part d)
    (n : Option InfoNote) : Keeps part (defineInfo n) := by
  refine Keeps.bind (keeps_still fun _ => rfl) fun d => ?_
  split
  · exact Keeps.bind (keeps_still fun _ => rfl) fun _ => moves_edit fun doc => h doc _
  · exact keeps_still fun _ => rfl

theorem keeps_defineServers (h : ∀ (d : OpenApi) servers, part { d with servers } = part d)
    (notes : List ServerNote) : Keeps part (defineServers notes) := by
  induction notes with
  | nil => exact keeps_still fun _ => rfl
  | cons n ns ih =>
    refine Keeps.bind (keeps_still fun _ => rfl) fun s =>
      Keeps.bind (moves_edit fun doc => ?_) fun _ => ih
    unfold addServer
    split
    · rfl
    · exact h doc _

theorem keeps_defineExtensions (h : ∀ (d : OpenApi) extensions, part { d with extensions } = part d)
    (notes : List ExtensionNote) : Keeps part (defineExtensions notes) :=
  Keeps.bind (keeps_still fun _ => rfl) fun _ => moves_edit fun doc => h doc _

theorem keeps_addSecuritySchemes
    (h : ∀ (d : OpenApi) securitySchemes,
      part { d with components := some { d.componentsOrNew with securitySchemes } } = part d)
    (notes : List SecuritySchemeNote) : Keeps part (addSecuritySchemes notes) := by
  induction notes with
  | nil => exact keeps_still fun _ => rfl
  | cons n ns ih =>
    exact Keeps.bind (Keeps.bind (keeps_still fun _ => rfl) fun _ =>
      moves_edit fun doc => h doc _) fun _ => ih

end Parts

section Retaining

variable {settings : Settings} {slots : List Slot}

theorem retains_addTag (d : OpenApi) (t : Tag) : Retains settings slots d (d.addTag t) := by
  unfold OpenApi.addTag
  split
  · exact .refl d
  · exact { Retains.refl d with tags := List.prefix_append _ _ }

theorem retains_addServer (d : OpenApi) (s : Server) :
    Retains settings slots d (addServer d s) := by
  unfold addServer
  split
  · exact .refl d
  · exact { Retains.refl d with servers := List.prefix_append _ _ }

theorem moves_defineInfo (n : Option InfoNote) :
    Moves (Retains settings slots) (defineInfo n) := by
  intro d
  unfold defineInfo
  rw [ExceptT.outcome_bind_ok (show (get : Step Draft).outcome d = (.ok d, d) from rfl)]
  split
  · rename_i n hinfo
    cases hn : n.node with
    | error f =>
      have hcheck : (check (.error f : Except Failure Info)).outcome d = (.error f, d) := rfl
      rw [ExceptT.outcome_bind_error hcheck]
      exact .refl _
    | ok info =>
      have hcheck : (check (.ok info : Except Failure Info)).outcome d = (.ok info, d) := rfl
      rw [ExceptT.outcome_bind_ok hcheck]
      exact { Retains.refl d.document with
        info := fun i hi => by rw [hinfo] at hi; cases hi }
  · exact .refl _

theorem moves_defineServers (notes : List ServerNote) :
    Moves (Retains settings slots) (defineServers notes) := by
  induction notes with
  | nil => exact moves_still .refl fun _ => rfl
  | cons n ns ih =>
    exact (moves_still .refl fun _ => rfl).bind .trans fun s =>
      (moves_edit fun doc => retains_addServer doc s).bind .trans fun _ => ih

theorem moves_defineExtensions (notes : List ExtensionNote) :
    Moves (Retains settings slots) (defineExtensions notes) := by
  refine (moves_still .refl fun _ => rfl).bind .trans fun extensions => moves_edit fun doc => ?_
  exact { Retains.refl doc with extensions := Ordered.continues_foldl_putNew _ _ _ _ }

theorem moves_applyDefinition (n : DefinitionNote) :
    Moves (Retains settings slots) (applyDefinition n) := by
  refine (moves_defineInfo n.info).bind .trans fun _ =>
    (moves_defineServers n.servers).bind .trans fun _ =>
      (moves_defineTags .refl .trans retains_addTag n.tags).bind .trans fun _ =>
        (moves_edit fun doc => ?_).bind .trans fun _ => moves_defineExtensions n.extensions
  exact { Retains.refl doc with
    security := List.prefix_append _ _
    externalDocs := fun e he => by simp [he] }

theorem moves_addSecuritySchemes (notes : List SecuritySchemeNote) :
    Moves (Retains settings slots) (addSecuritySchemes notes) := by
  induction notes with
  | nil => exact moves_still .refl fun _ => rfl
  | cons n ns ih =>
    refine Moves.bind .trans (Moves.bind .trans (moves_still .refl fun _ => rfl) fun scheme =>
      moves_edit fun doc => ?_) fun _ => ih
    exact { Retains.refl doc with
      components := { ComponentsKept.refl doc.componentsOrNew with
        securitySchemes := Ordered.continues_putNew _ _ _ } }

/-! ### Slots that are filled -/

theorem retains_place (a : Assembly) {slot : Slot} (hslot : slot ∈ slots) (o : Operation)
    (d : OpenApi) : Retains a.settings slots d (a.place slot.1 slot.2 o d) where
  components := .refl _
  items path i hi := by
    by_cases hp : path = slot.1
    · subst hp
      refine ⟨_, Ordered.get?_put_self _ _ _, ?_⟩
      simp only [hi, Option.getD_some]
      constructor
      case operations =>
        intro m hm
        have hne : m ≠ slot.2 := fun e => hm (by rw [e]; exact hslot)
        rw [ByMethod.at?_set_ne _ hne, Option.map_id_apply]
      case servers =>
        dsimp only
        split
        · rename_i hempty
          split
          · rename_i urls hurls
            exact Or.inr ⟨List.isEmpty_iff.mp hempty, urls, hurls, rfl⟩
          · exact Or.inl rfl
        · exact Or.inl rfl
      all_goals rfl
    · exact ⟨i, by rw [place, Ordered.get?_put_ne _ hp, hi], .refl i⟩
  order := Ordered.prefix_keys_put _ _ _
  info _ h := h
  externalDocs _ h := h
  extensions := .refl _
  tags := List.prefix_refl _
  security := List.prefix_refl _
  servers := List.prefix_refl _

theorem moves_addEndpoints (a : Assembly) (basePath : Option String) {es : List Endpoint}
    (hslots : slotsOf basePath es ⊆ slots) :
    Moves (Retains a.settings slots) (a.addEndpoints basePath es) := by
  induction es with
  | nil => exact moves_still .refl fun _ => rfl
  | cons e es ih =>
    rw [slotsOf, List.flatMap_cons, List.append_subset] at hslots
    have hplaces : ∀ h ∈ e.handlers, PlacesBy (Retains a.settings slots) a basePath e h :=
      fun h hh _ _ _ _ hslot _ =>
        retains_place a (hslots.1 (List.mem_filterMap.mpr ⟨h, hh, hslot⟩)) _ _
    exact (moves_addEndpoint .refl .trans retains_addTag hplaces).bind .trans fun _ => ih hslots.2

theorem moves_addInventory (a : Assembly) (i : Inventory) :
    Moves (Retains a.settings (slotsOf i.basePath i.endpoints)) (a.addInventory i) :=
  (moves_applyDefinition i.definition).bind .trans fun _ =>
    (moves_addSecuritySchemes i.securitySchemes).bind .trans fun _ =>
      moves_addEndpoints a i.basePath fun _ h => h

end Retaining

/-! ### The finished document -/

/-- What is left of a base document in the document that was built on it, given the
slots for which operations were generated. -/
structure Survives (settings : Settings) (slots : List Slot) (base d : OpenApi) : Prop where
  components : ComponentsKept base.componentsOrNew d.componentsOrNew
  items : ∀ path i, base.paths.get? path = some i → ∃ j, d.paths.get? path = some j ∧
    ItemKept settings slots withResponses path i j
  order : base.paths.keys <+: d.paths.keys
  info : ∀ i, base.info = some i → ∃ title version, d.info = some { i with title, version } ∧
    (title = i.title ∨ i.title = "" ∨ (settings.get? Settings.titleKey).isSome) ∧
    (version = i.version ∨ i.version = "" ∨ (settings.get? Settings.versionKey).isSome)
  externalDocs : ∀ e, base.externalDocs = some e → d.externalDocs = some e
  extensions : base.extensions.Continues d.extensions
  tags : base.tags <+: d.tags
  security : base.security <+: d.security
  servers : settings.list? Settings.serversKey = none → base.servers <+: d.servers

theorem at?_mapSlots (f : Operation → Operation) (s : ByMethod Operation) (m : HttpMethod) :
    (mapSlots f s).at? m = (s.at? m).map f := by
  cases m <;> rfl

theorem settled_title (configured : Option String) (own fallback : String) :
    (if (configured.getD own).isEmpty then fallback else configured.getD own) = own ∨
      own = "" ∨ configured.isSome := by
  cases configured with
  | some t => exact Or.inr (Or.inr rfl)
  | none =>
    by_cases ho : own = ""
    · exact Or.inr (Or.inl ho)
    · exact Or.inl (by simp [ho])

theorem components_finish (a : Assembly) (d : Draft) :
    ComponentsKept d.document.componentsOrNew (a.finish d).componentsOrNew := by
  rw [componentsOrNew_finish]
  exact { ComponentsKept.refl d.document.componentsOrNew with
    schemas := Ordered.continues_foldl_putNew _ _ _ _ }

theorem survives_finish (a : Assembly) (d : Draft) {slots : List Slot} {base : OpenApi}
    (h : Retains a.settings slots base d.document) :
    Survives a.settings slots base (a.finish d) where
  components := h.components.trans (components_finish a d)
  items path i hi := by
    obtain ⟨j, hj, hij⟩ := h.items path i hi
    refine ⟨_, by rw [finish, Ordered.get?_mapValues, hj]; rfl, hij.trans ?_⟩
    exact ⟨rfl, rfl, rfl, rfl, rfl, fun m _ => at?_mapSlots _ _ m, Or.inl rfl⟩
  order := by
    exact h.order
  info i hi := by
    refine ⟨_, _, ?_, settled_title _ _ defaultTitle, settled_title _ _ defaultVersion⟩
    rw [finish, h.info i hi]
    rfl
  externalDocs := h.externalDocs
  extensions := h.extensions
  tags := h.tags
  security := h.security
  servers hnone := by
    have hsame : (a.finish d).servers = d.document.servers := by simp only [finish, hnone]
    rw [hsame]
    exact h.servers

/-- Whatever is built on a base document still has all of it. -/
theorem base_survives (settings : Settings) (strategy : IdStrategy) (base : OpenApi)
    (i : Inventory) (depth : Nat) (d : OpenApi)
    (h : build settings strategy base i depth = .ok d) :
    Survives settings (slotsOf i.basePath i.endpoints) base d := by
  obtain ⟨last, hrun, rfl⟩ := build_run h
  have hmoves := moves_addInventory { settings, strategy, catalog := i.types, depth } i (begin base)
  rw [hrun] at hmoves
  exact survives_finish _ last hmoves

section Witness

def storeBase : OpenApi where
  info := some { title := "Store", termsOfService := some "https://example.com/terms" }
  servers := [{ url := "https://example.com" }]
  paths := Ordered.ofRows [("/items", {
    summary := some "All items"
    slots := { get := some { operationId := some "list" } } })]
  components := some { schemas := Ordered.ofRows [("Item", {})] }
  tags := [{ name := "items" }]
  extensions := Ordered.ofRows [("x-owner", .text "store")]

def storeSettings : Settings :=
  (({} : Settings).set Settings.titleKey "The store").set (Settings.pathServersKey "/items") "/v1"

def storeInventory : Inventory where
  endpoints := [{ path := some "items", handlers := [{ name := "list", verb := some .post }] }]

def storeDocument : OpenApi :=
  match build storeSettings IdStrategy.byHandler storeBase storeInventory with
  | .ok d => d
  | .error _ => {}

theorem store_built :
    build storeSettings IdStrategy.byHandler storeBase storeInventory = .ok storeDocument := by
  have hok : (build storeSettings IdStrategy.byHandler storeBase
      storeInventory).toOption.isSome = true := by
    decide +kernel
  unfold storeDocument
  cases hb : build storeSettings IdStrategy.byHandler storeBase storeInventory with
  | ok d => rfl
  | error f =>
    rw [hb] at hok
    cases hok

theorem base_survives_store :
    build storeSettings IdStrategy.byHandler storeBase storeInventory = .ok storeDocument ∧
    slotsOf storeInventory.basePath storeInventory.endpoints = [("/items", .post)] ∧
    Survives storeSettings (slotsOf storeInventory.basePath storeInventory.endpoints)
      storeBase storeDocument :=
  ⟨store_built, by decide +kernel,
    base_survives storeSettings IdStrategy.byHandler storeBase storeInventory usualDepth
      storeDocument store_built⟩

end Witness

end Assembly

end ApiDoc
