import Mathlib.Data.List.ReduceOption
import ApiDoc.Proofs.Assembly.Expansion
import ApiDoc.Proofs.Assembly.Retained

/-!
# Tags

The first definition of a name that is met stays: what the base document has, what is
said about the document, and then for endpoint after endpoint its own tags and those
of its handlers. The tags of a handler count when an operation is made of it, and when
no setting decides the tags of that operation, which depends on the id that it gets.
Since an endpoint has defined all of its tags by then, a reference to one of them
finds it defined.
-/

set_option autoImplicit false

namespace ApiDoc

def TagNote.label (n : TagNote) : String := n.name.getD (n.reference.getD "")

def register (tags : List Tag) (t : Tag) : List Tag :=
  if tags.any (·.name = t.name) then tags else tags ++ [t]

def newTags (known tags : List Tag) : List Tag :=
  (tags.filter fun t => !known.any (·.name = t.name)).eraseDupsBy fun t u => t.name = u.name

theorem foldl_register (tags known : List Tag) :
    tags.foldl register known = known ++ newTags known tags := by
  induction tags generalizing known with
  | nil => simp [newTags]
  | cons t ts ih =>
    rw [List.foldl_cons, ih, register, newTags, newTags, List.filter_cons]
    by_cases ht : known.any (·.name = t.name)
    · simp [ht]
    · have hrest : (ts.filter fun u => !(known ++ [t]).any (·.name = u.name)) =
          (ts.filter fun u => !known.any (·.name = u.name)).filter
            fun u => decide (decide (u.name = t.name) = false) := by
        rw [List.filter_filter]
        refine List.filter_congr fun u _ => ?_
        simp [Bool.and_comm, eq_comm]
      simp only [ht, Bool.false_eq_true, ↓reduceIte, Bool.not_false, List.eraseDupsBy_cons, hrest,
        List.append_assoc, List.singleton_append]

theorem subset_foldl_register (tags known : List Tag) : known ⊆ tags.foldl register known := by
  rw [foldl_register]
  exact List.subset_append_left _ _

theorem register_of_mem {tags : List Tag} {t : Tag} (h : ∃ u ∈ tags, u.name = t.name) :
    register tags t = tags := by
  simp [register, h]

theorem name_mem_register (tags : List Tag) (t : Tag) : ∃ u ∈ register tags t, u.name = t.name := by
  by_cases h : ∃ u ∈ tags, u.name = t.name
  · rwa [register_of_mem h]
  · exact ⟨t, by simp [register, h], rfl⟩

namespace OpenApi

theorem tag?_isSome {d : OpenApi} {name : String} :
    (d.tag? name).isSome ↔ ∃ t ∈ d.tags, t.name = name := by
  simp [tag?]

theorem tags_addTag (d : OpenApi) (t : Tag) : (d.addTag t).tags = register d.tags t := by
  by_cases h : ∃ u ∈ d.tags, u.name = t.name
  · rw [addTag, if_pos (tag?_isSome.mpr h), register_of_mem h]
  · rw [addTag, if_neg (mt tag?_isSome.mp h)]
    simp [register, h]

end OpenApi

/-! ### Notes that are registered -/

def Registered (notes : List TagNote) (tags tags' : List Tag) : Prop :=
  ∃ defined, notes.mapM (·.node?) = .ok defined ∧ tags' = defined.reduceOption.foldl register tags

def Covers (tags : List Tag) (notes : List TagNote) : Prop :=
  ∀ n ∈ notes, ∀ name, n.name = some name → ∃ t ∈ tags, t.name = name

theorem TagNote.name_of_node? {n : TagNote} {t : Tag} (h : n.node? = .ok (some t)) :
    n.name = some t.name := by
  unfold node? at h
  cases hn : n.name with
  | none =>
    rw [hn] at h
    cases h
  | some name =>
    rw [hn] at h
    obtain ⟨extensions, -, h⟩ := Except.bind_eq_ok h
    cases h
    rfl

theorem TagNote.name_of_node?_none {n : TagNote} (h : n.node? = .ok none) : n.name = none := by
  unfold node? at h
  cases hn : n.name with
  | none => rfl
  | some name =>
    rw [hn] at h
    obtain ⟨extensions, -, h⟩ := Except.bind_eq_ok h
    cases h

section Registering

variable {notes more own : List TagNote} {tags tags' tags'' : List Tag}

theorem registered_nil (tags : List Tag) : Registered [] tags tags := ⟨[], rfl, rfl⟩

theorem registered_singleton {n : TagNote} {t : Option Tag} (h : n.node? = .ok t)
    (tags : List Tag) : Registered [n] tags (t.toList.foldl register tags) := by
  refine ⟨[t], by rw [List.mapM_cons, h]; rfl, ?_⟩
  cases t <;> rfl

theorem Registered.append (h : Registered notes tags tags') (h' : Registered more tags' tags'') :
    Registered (notes ++ more) tags tags'' := by
  obtain ⟨defined, hd, rfl⟩ := h
  obtain ⟨defined', hd', rfl⟩ := h'
  refine ⟨defined ++ defined', by rw [List.mapM_append, hd, hd']; rfl, ?_⟩
  rw [List.reduceOption_append, List.foldl_append]

theorem Registered.eq_newTags (h : Registered notes tags tags') :
    ∃ defined, notes.mapM (·.node?) = .ok defined ∧
      tags' = tags ++ newTags tags defined.reduceOption := by
  obtain ⟨defined, hd, rfl⟩ := h
  exact ⟨defined, hd, foldl_register _ _⟩

theorem Registered.subset (h : Registered notes tags tags') : tags ⊆ tags' := by
  obtain ⟨defined, -, rfl⟩ := h
  exact subset_foldl_register _ _

theorem Covers.mono (h : Covers tags own) (hs : tags ⊆ tags') : Covers tags' own := by
  intro n hn name hname
  obtain ⟨t, ht, htn⟩ := h n hn name hname
  exact ⟨t, hs ht, htn⟩

theorem Registered.cons_iff {n : TagNote} :
    Registered (n :: notes) tags tags'' ↔
      ∃ t, n.node? = .ok t ∧ Registered notes (t.toList.foldl register tags) tags'' := by
  constructor
  · rintro ⟨defined, hd, rfl⟩
    rw [List.mapM_cons] at hd
    obtain ⟨t, ht, hd⟩ := Except.bind_eq_ok hd
    obtain ⟨rest, hrest, hd⟩ := Except.bind_eq_ok hd
    cases hd
    refine ⟨t, ht, rest, hrest, ?_⟩
    cases t <;> rfl
  · rintro ⟨t, ht, h⟩
    exact (registered_singleton ht tags).append h

/-- What was registered is covered from then on. -/
theorem Registered.covers (h : Registered notes tags tags') : Covers tags' notes := by
  induction notes generalizing tags with
  | nil => exact List.forall_mem_nil _
  | cons n ns ih =>
    obtain ⟨t, ht, h⟩ := Registered.cons_iff.mp h
    refine List.forall_mem_cons.mpr ⟨fun name hname => ?_, ih h⟩
    cases t with
    | none => simp [TagNote.name_of_node?_none ht] at hname
    | some t =>
      obtain ⟨u, hu, hun⟩ := name_mem_register tags t
      rw [TagNote.name_of_node? ht] at hname
      exact ⟨u, h.subset hu, hun.trans (Option.some.inj hname)⟩

/-- What is covered can be registered again, and nothing happens. -/
theorem Registered.eq_of_covers (h : Registered notes tags tags') (hc : Covers tags notes) :
    tags' = tags := by
  induction notes with
  | nil =>
    obtain ⟨defined, hd, rfl⟩ := h
    cases hd
    rfl
  | cons n ns ih =>
    obtain ⟨t, ht, h⟩ := Registered.cons_iff.mp h
    obtain ⟨hn, hns⟩ := List.forall_mem_cons.mp hc
    have hsame : t.toList.foldl register tags = tags := by
      cases t with
      | none => rfl
      | some t => exact register_of_mem (hn _ (TagNote.name_of_node? ht))
    rw [hsame] at h
    exact ih h hns

end Registering

namespace Assembly

open Step

/-! ### Jobs -/

structure Job where
  endpoint : Endpoint
  handler : Handler
  slot : Slot
  id : String

namespace Job

def isConfigured (settings : Settings) (j : Job) : Bool :=
  (settings.list? (Settings.operationTagsKey j.id)).isSome

def notes (settings : Settings) (j : Job) : List TagNote :=
  if j.isConfigured settings then [] else j.handler.tags

/-- The names that the handler mentions, else those that its endpoint does, each once
and in order of first mention. -/
def labels (j : Job) : List String :=
  ((orInherited j.handler.tags j.endpoint.tags).map (·.label)).eraseDups

def Tells (settings : Settings) (j : Job) (o : Operation) : Prop :=
  o.operationId = some j.id ∧ (j.isConfigured settings = false → o.tags = j.labels)

end Job

def jobs (a : Assembly) (basePath : Option String) (e : Endpoint) :
    OperationIds → List Handler → List Job
  | _, [] => []
  | ids, h :: hs =>
    match slotOf? basePath e h with
    | none => jobs a basePath e ids hs
    | some slot =>
      let (id, ids) := ids.claim (a.candidate e h slot)
      ⟨e, h, slot, id⟩ :: jobs a basePath e ids hs

def idsAfter (ids : OperationIds) (js : List Job) : OperationIds :=
  js.foldl (fun ids j => ids.reserve j.id) ids

def agenda (a : Assembly) (basePath : Option String) :
    OperationIds → List Endpoint → List (Endpoint × List Job)
  | _, [] => []
  | ids, e :: es =>
    let js := a.jobs basePath e ids e.handlers
    (e, js) :: agenda a basePath (idsAfter ids js) es

def notesOf (settings : Settings) (rows : List (Endpoint × List Job)) : List TagNote :=
  rows.flatMap fun row => row.1.tags ++ row.2.flatMap (·.notes settings)

def lastFor (js : List Job) (slot : Slot) : Option Job := js.reverse.find? (·.slot = slot)

theorem lastFor_append (js js' : List Job) (slot : Slot) :
    lastFor (js ++ js') slot = (lastFor js' slot).or (lastFor js slot) := by
  rw [lastFor, List.reverse_append, List.find?_append]
  rfl

theorem idsAfter_append (ids : OperationIds) (js js' : List Job) :
    idsAfter ids (js ++ js') = idsAfter (idsAfter ids js) js' :=
  List.foldl_append

theorem slots_jobs (a : Assembly) (basePath : Option String) (e : Endpoint) (ids : OperationIds)
    (hs : List Handler) :
    (a.jobs basePath e ids hs).map (·.slot) = hs.filterMap (slotOf? basePath e) := by
  induction hs generalizing ids with
  | nil => rfl
  | cons h hs ih =>
    rw [jobs, List.filterMap_cons]
    cases slotOf? basePath e h with
    | none => exact ih ids
    | some slot => exact congrArg (slot :: ·) (ih _)

/-- There is a job for every handler that is not passed over. -/
theorem slots_agenda (a : Assembly) (basePath : Option String) (ids : OperationIds)
    (es : List Endpoint) :
    ((a.agenda basePath ids es).flatMap (·.2)).map (·.slot) = slotsOf basePath es := by
  induction es generalizing ids with
  | nil => rfl
  | cons e es ih =>
    rw [agenda, List.flatMap_cons, List.map_append, ih, slots_jobs]
    rfl

/-! ### What is read is registered -/

section Steps

variable {own notes : List TagNote} {d d' : Draft}

theorem tags_of_defineTag {t : Option Tag} (h : (defineTag t).outcome d = (.ok (), d')) :
    d'.document.tags = t.toList.foldl register d.document.tags := by
  cases t with
  | none =>
    cases h
    rfl
  | some t =>
    cases h
    exact OpenApi.tags_addTag d.document t

theorem registered_defineTags (h : (defineTags notes).outcome d = (.ok (), d')) :
    Registered notes d.document.tags d'.document.tags := by
  induction notes generalizing d with
  | nil =>
    cases h
    exact registered_nil _
  | cons n ns ih =>
    obtain ⟨t, d₁, ht, h⟩ := ExceptT.outcome_bind_eq_ok h
    obtain ⟨hnode, rfl⟩ : n.node? = .ok t ∧ d = d₁ := Prod.mk.inj ht
    obtain ⟨_, d₂, hdefine, h⟩ := ExceptT.outcome_bind_eq_ok h
    refine Registered.cons_iff.mpr ⟨t, hnode, ?_⟩
    rw [← tags_of_defineTag hdefine]
    exact ih h

/-- A name that the endpoint defines is known when it is mentioned. -/
theorem mention_eq (hc : Covers d.document.tags own) (name : String) :
    (mention own name).outcome d = (.ok (), d) := by
  have hget : (get : Step Draft).outcome d = (.ok d, d) := rfl
  refine (ExceptT.outcome_bind_ok hget).trans ?_
  by_cases hknown : (d.document.tag? name).isNone
  · have hnone : own.find? (·.name = some name) = none := by
      rw [List.find?_eq_none]
      intro n hn hname
      have hsome := OpenApi.tag?_isSome.mpr (hc n hn name (by simpa using hname))
      rw [Option.isNone_iff_eq_none.mp hknown] at hsome
      cases hsome
    rw [if_pos hknown, hnone]
    rfl
  · rw [if_neg hknown]
    rfl

theorem resolveTag_eq_ok (hc : Covers d.document.tags own) {n : TagNote} {name : String}
    (h : (resolveTag own n).outcome d = (.ok name, d')) :
    name = n.label ∧ Registered [n] d.document.tags d'.document.tags := by
  obtain ⟨t, d₁, ht, h⟩ := ExceptT.outcome_bind_eq_ok h
  obtain ⟨hnode, rfl⟩ : n.node? = .ok t ∧ d = d₁ := Prod.mk.inj ht
  cases t with
  | none =>
    obtain ⟨_, d₂, hmention, h⟩ := ExceptT.outcome_bind_eq_ok h
    rw [mention_eq hc] at hmention
    cases hmention
    cases h
    refine ⟨?_, registered_singleton hnode _⟩
    rw [TagNote.label, TagNote.name_of_node?_none hnode]
    rfl
  | some t =>
    obtain ⟨_, d₂, hdefine, h⟩ := ExceptT.outcome_bind_eq_ok h
    cases h
    refine ⟨?_, ?_⟩
    · rw [TagNote.label, TagNote.name_of_node? hnode]
      rfl
    · rw [tags_of_defineTag hdefine]
      exact registered_singleton hnode _

/-- The names that were resolved are those mentioned so far, each once. -/
theorem resolveTags_eq_ok (hc : Covers d.document.tags own) (seen : List String)
    {names : List String}
    (h : (resolveTags own seen.eraseDups notes).outcome d = (.ok names, d')) :
    names = (seen ++ notes.map (·.label)).eraseDups ∧
      Registered notes d.document.tags d'.document.tags := by
  induction notes generalizing seen d with
  | nil =>
    cases h
    exact ⟨by rw [List.map_nil, List.append_nil], registered_nil _⟩
  | cons n ns ih =>
    obtain ⟨name, d₁, hname, h⟩ := ExceptT.outcome_bind_eq_ok h
    obtain ⟨rfl, hone⟩ := resolveTag_eq_ok hc hname
    have hseen : (if seen.eraseDups.contains n.label then seen.eraseDups
        else seen.eraseDups ++ [n.label]) = (seen ++ [n.label]).eraseDups := by
      rw [eraseDups_concat]
      simp [List.mem_eraseDups]
    rw [hseen] at h
    obtain ⟨hnames, hrest⟩ := ih (hc.mono hone.subset) _ h
    refine ⟨?_, hone.append hrest⟩
    rw [hnames, List.append_assoc]
    rfl

/-- An operation lists names, and what its handler defines is registered. -/
theorem operationTags_eq_ok {a : Assembly} {e : Endpoint} {h : Handler} (slot : Slot) {id : String}
    {names : List String} (hc : Covers d.document.tags e.tags)
    (ho : (a.operationTags e h id).outcome d = (.ok names, d')) :
    Registered (Job.notes a.settings ⟨e, h, slot, id⟩) d.document.tags d'.document.tags ∧
      (Job.isConfigured a.settings ⟨e, h, slot, id⟩ = false →
        names = Job.labels ⟨e, h, slot, id⟩) := by
  unfold operationTags at ho
  cases hset : a.settings.list? (Settings.operationTagsKey id) with
  | some tags =>
    have hconfigured : Job.isConfigured a.settings ⟨e, h, slot, id⟩ = true := by
      rw [Job.isConfigured, hset]
      rfl
    rw [hset] at ho
    cases ho
    rw [Job.notes, if_pos hconfigured, hconfigured]
    exact ⟨registered_nil _, nofun⟩
  | none =>
    have hasked : Job.isConfigured a.settings ⟨e, h, slot, id⟩ = false := by
      rw [Job.isConfigured, hset]
      rfl
    rw [hset] at ho
    obtain ⟨hnames, hregistered⟩ := resolveTags_eq_ok hc [] ho
    rw [Job.notes, hasked, if_neg Bool.false_ne_true]
    refine ⟨?_, fun _ => hnames⟩
    cases htags : h.tags with
    | cons n ns => rwa [htags] at hregistered
    | nil =>
      -- all that the endpoint defines is there already
      rw [htags] at hregistered
      rw [hregistered.eq_of_covers hc]
      exact registered_nil _

/-- What is described for a handler is its job. -/
theorem described_eq_ok {a : Assembly} {e : Endpoint} {h : Handler} {slot : Slot} {o : Operation}
    (hc : Covers d.document.tags e.tags) (ho : a.described e h slot d = (.ok o, d')) :
    Registered (Job.notes a.settings ⟨e, h, slot, claimedId d (a.candidate e h slot)⟩)
        d.document.tags d'.document.tags ∧
      Job.Tells a.settings ⟨e, h, slot, claimedId d (a.candidate e h slot)⟩ o := by
  obtain ⟨hid, tagged, v₁, v₂, v₃, own, htags, -, -, -, -, -, hsame⟩ := described_parts ho
  have hclaimed : Covers (claimed d (a.candidate e h slot)).document.tags e.tags := hc
  obtain ⟨hregistered, hnames⟩ := operationTags_eq_ok slot hclaimed htags
  rw [hsame]
  exact ⟨hregistered, hid, hnames⟩

end Steps

/-! ### What a run adds -/

/-- The operation of a slot is the one that a job has made, if there is a job for it,
and else the one that was there. -/
def Made (settings : Settings) (old new : Option Operation) : Option Job → Prop
  | none => new = old
  | some j => ∃ o, new = some o ∧ j.Tells settings o

structure Adds (settings : Settings) (notes : List TagNote) (js : List Job) (d d' : Draft) :
    Prop where
  ids : d'.ids = idsAfter d.ids js
  registered : Registered notes d.document.tags d'.document.tags
  made : ∀ slot, Made settings (d.document.slot? slot) (d'.document.slot? slot) (lastFor js slot)

section Adding

variable {settings : Settings} {notes more : List TagNote} {js js' : List Job} {d d' d'' : Draft}

theorem Adds.refl (d : Draft) : Adds settings [] [] d d := ⟨rfl, registered_nil _, fun _ => rfl⟩

theorem Adds.append (h : Adds settings notes js d d') (h' : Adds settings more js' d' d'') :
    Adds settings (notes ++ more) (js ++ js') d d'' where
  ids := by rw [h'.ids, h.ids, idsAfter_append]
  registered := h.registered.append h'.registered
  made slot := by
    have hfirst := h.made slot
    have hthen := h'.made slot
    rw [lastFor_append]
    cases hlast : lastFor js' slot with
    | some j => rwa [hlast] at hthen
    | none =>
      rw [hlast] at hthen
      rw [Option.none_or, show d''.document.slot? slot = d'.document.slot? slot from hthen]
      exact hfirst

/-- A step that does nothing to paths and ids does no job. -/
theorem Adds.of_frame (hf : Frame d d')
    (hr : Registered notes d.document.tags d'.document.tags) : Adds settings notes [] d d' where
  ids := hf.ids
  registered := hr
  made slot := by
    show d'.document.slot? slot = d.document.slot? slot
    rw [OpenApi.slot?, OpenApi.slot?, hf.paths]

variable {a : Assembly} {basePath : Option String} {e : Endpoint}

theorem adds_job {h : Handler} {slot : Slot} {o : Operation} {b : Draft}
    (hc : Covers d.document.tags e.tags) (ho : a.described e h slot d = (.ok o, b)) :
    Adds a.settings (Job.notes a.settings ⟨e, h, slot, claimedId d (a.candidate e h slot)⟩)
      [⟨e, h, slot, claimedId d (a.candidate e h slot)⟩] d
      { b with document := a.place slot.1 slot.2 o b.document } := by
  obtain ⟨hregistered, htells⟩ := described_eq_ok hc ho
  have hframe := frame_described ho
  constructor
  case ids => exact hframe.ids
  case registered => exact hregistered
  case made =>
    intro other
    by_cases hs : slot = other
    · subst hs
      rw [lastFor, List.reverse_singleton, List.find?_cons_of_pos (by simp)]
      exact ⟨o, a.slot?_place_self _ _ _ _, htells⟩
    · rw [lastFor, List.reverse_singleton, List.find?_cons_of_neg (by simpa using hs)]
      show OpenApi.slot? (a.place slot.1 slot.2 o b.document) other = d.document.slot? other
      rw [a.slot?_place_ne _ _ _ _ (Ne.symm hs), OpenApi.slot?, OpenApi.slot?, hframe.paths]
      rfl

theorem adds_addHandlers {hs : List Handler} {ids : OperationIds} (hids : d.ids = ids)
    (hc : Covers d.document.tags e.tags)
    (ho : (a.addHandlers basePath e hs).outcome d = (.ok (), d')) :
    Adds a.settings ((a.jobs basePath e ids hs).flatMap (·.notes a.settings))
      (a.jobs basePath e ids hs) d d' := by
  induction hs generalizing d ids with
  | nil =>
    cases ho
    exact .refl _
  | cons h hs ih =>
    obtain ⟨_, d₁, hone, ho⟩ := ExceptT.outcome_bind_eq_ok ho
    cases handlerStep_of_outcome hone with
    | passed hslot =>
      rw [jobs, hslot]
      exact ih hids hc ho
    | filled hslot hdesc =>
      have hjob := adds_job hc hdesc
      subst hids
      rw [jobs, hslot]
      exact hjob.append (ih hjob.ids (hc.mono hjob.registered.subset) ho)

theorem adds_addEndpoints {es : List Endpoint} {ids : OperationIds} (hids : d.ids = ids)
    (ho : (a.addEndpoints basePath es).outcome d = (.ok (), d')) :
    Adds a.settings (notesOf a.settings (a.agenda basePath ids es))
      ((a.agenda basePath ids es).flatMap (·.2)) d d' := by
  induction es generalizing d ids with
  | nil =>
    cases ho
    exact .refl _
  | cons e es ih =>
    obtain ⟨_, d₂, hone, ho⟩ := ExceptT.outcome_bind_eq_ok ho
    obtain ⟨_, d₁, htags, hone⟩ := ExceptT.outcome_bind_eq_ok hone
    have hframe := (quiet_defineTags e.tags).framed d
    rw [htags] at hframe
    have hregistered := registered_defineTags htags
    have hendpoint := (Adds.of_frame hframe hregistered).append
      (adds_addHandlers (hframe.ids.trans hids) hregistered.covers hone)
    subst hids
    exact hendpoint.append (ih hendpoint.ids ho)

end Adding

/-! ### The document as a whole -/

theorem registered_applyDefinition {n : DefinitionNote} {d d' : Draft}
    (ho : (applyDefinition n).outcome d = (.ok (), d')) :
    Registered n.tags d.document.tags d'.document.tags := by
  obtain ⟨_, d₁, hinfo, ho⟩ := ExceptT.outcome_bind_eq_ok ho
  obtain ⟨_, d₂, hservers, ho⟩ := ExceptT.outcome_bind_eq_ok ho
  obtain ⟨_, d₃, htags, ho⟩ := ExceptT.outcome_bind_eq_ok ho
  have hrest : Keeps (·.tags) (edit (fun doc => { doc with
      security := doc.security ++ n.security.map (·.node)
      externalDocs := doc.externalDocs.orElse fun _ => n.externalDocs.map (·.node) }) >>=
        fun _ => defineExtensions n.extensions) :=
    Keeps.bind (moves_edit fun _ => rfl) fun _ => keeps_defineExtensions (fun _ _ => rfl) _
  have htop : Keeps (·.tags) (defineInfo n.info) := keeps_defineInfo (fun _ _ => rfl) _
  have hlisted : Keeps (·.tags) (defineServers n.servers) := keeps_defineServers (fun _ _ => rfl) _
  rw [hrest.eq ho, ← htop.eq hinfo, ← hlisted.eq hservers]
  exact registered_defineTags htags

/-- What an inventory registers, and the jobs that its handlers make. -/
theorem adds_addInventory {a : Assembly} {i : Inventory} {d d' : Draft}
    (ho : (a.addInventory i).outcome d = (.ok (), d')) :
    Adds a.settings
      (i.definition.tags ++ notesOf a.settings (a.agenda i.basePath d.ids i.endpoints))
      ((a.agenda i.basePath d.ids i.endpoints).flatMap (·.2)) d d' := by
  obtain ⟨_, d₁, hdefinition, ho⟩ := ExceptT.outcome_bind_eq_ok ho
  obtain ⟨_, d₂, hschemes, ho⟩ := ExceptT.outcome_bind_eq_ok ho
  have hfirst := (quiet_applyDefinition i.definition).framed d
  have hsecond := (quiet_addSecuritySchemes i.securitySchemes).framed d₁
  rw [hdefinition] at hfirst
  rw [hschemes] at hsecond
  have hregistered := registered_applyDefinition hdefinition
  have hkeeps : Keeps (·.tags) (addSecuritySchemes i.securitySchemes) :=
    keeps_addSecuritySchemes (fun _ _ => rfl) _
  rw [← hkeeps.eq hschemes] at hregistered
  exact (Adds.of_frame (hfirst.trans hsecond) hregistered).append
    (adds_addEndpoints (hsecond.ids.trans hfirst.ids) ho)

/-- The tags of a document that was built are those of the base document, and behind
them the first definition of each name that these do not have, in the order in which
the inventory is read. In the slots for which there are jobs stand the operations that
the last of these made; those whose tags no setting decides list the names that their
handlers mention, or their endpoints where the handlers mention none. -/
theorem tags_registered (settings : Settings) (strategy : IdStrategy) (base : OpenApi)
    (i : Inventory) (depth : Nat) (d : OpenApi)
    (h : build settings strategy base i depth = .ok d) :
    let rows := agenda { settings, strategy, catalog := i.types, depth } i.basePath
      (begin base).ids i.endpoints
    (∃ defined, (i.definition.tags ++ notesOf settings rows).mapM (·.node?) = .ok defined ∧
      d.tags = base.tags ++ newTags base.tags defined.reduceOption) ∧
    (rows.flatMap (·.2)).map (·.slot) = slotsOf i.basePath i.endpoints ∧
    ∀ slot,
      match lastFor (rows.flatMap (·.2)) slot with
      | none => d.slot? slot = (base.slot? slot).map withResponses
      | some j => ∃ o, d.slot? slot = some o ∧ o.operationId = some j.id ∧
          (settings.list? (Settings.operationTagsKey j.id) = none → o.tags = j.labels) := by
  obtain ⟨last, hrun, rfl⟩ := build_run h
  have hadds := adds_addInventory hrun
  refine ⟨hadds.registered.eq_newTags, slots_agenda _ _ _ _, fun slot => ?_⟩
  have hmade := hadds.made slot
  rw [slot?_finish]
  split
  · rename_i hnone
    rw [hnone] at hmade
    exact congrArg (Option.map withResponses) hmade
  · rename_i j hsome
    rw [hsome] at hmade
    obtain ⟨o, ho, hid, htags⟩ := hmade
    refine ⟨withResponses o, by rw [ho]; rfl, hid, fun hset => htags ?_⟩
    rw [Job.isConfigured, hset]
    rfl

section Witness

def taggedBase : OpenApi where
  tags := [{ name := "admin", description := some "As the base document says" }]

def taggedSettings : Settings :=
  ({} : Settings).set (Settings.operationTagsKey "audit") "log, admin"

def taggedInventory : Inventory where
  definition := { tags := [{ name := some "admin" }, { name := some "store" }] }
  endpoints := [{
    path := some "users"
    tags := [{ name := some "users" }, { reference := some "store" }]
    handlers := [
      { name := "list", verb := some .get },
      { name := "remove", verb := some .delete,
        tags := [{ reference := some "audit" }, { name := some "danger" },
          { reference := some "users" }, { reference := some "audit" }] },
      { name := "audit", verb := some .post, tags := [{ name := some "audit" }] },
      { name := "drop", verb := some .put, operation := some { hidden := true },
        tags := [{ name := some "hidden" }] }] }]

def taggedDocument : OpenApi :=
  (build taggedSettings IdStrategy.byHandler taggedBase taggedInventory).toOption.getD {}

theorem tagged_built :
    build taggedSettings IdStrategy.byHandler taggedBase taggedInventory = .ok taggedDocument := by
  have hok : (build taggedSettings IdStrategy.byHandler taggedBase
      taggedInventory).toOption.isSome = true := by
    decide +kernel
  rw [taggedDocument]
  exact Except.eq_ok_getD hok {}

/-- Neither the handler whose tags are decided elsewhere nor the hidden one defines a tag. -/
theorem tags_registered_tagged :
    build taggedSettings IdStrategy.byHandler taggedBase taggedInventory = .ok taggedDocument ∧
    taggedDocument.tags.map (·.name) = ["admin", "store", "users", "danger"] ∧
    taggedDocument.operations.map (·.2.2.tags) =
      [["users", "store"], ["log", "admin"], ["audit", "danger", "users"]] ∧
    let rows := agenda { settings := taggedSettings, strategy := IdStrategy.byHandler
                         catalog := taggedInventory.types, depth := usualDepth }
      taggedInventory.basePath (begin taggedBase).ids taggedInventory.endpoints
    (∃ defined, (taggedInventory.definition.tags ++ notesOf taggedSettings rows).mapM
        (·.node?) = .ok defined ∧
      taggedDocument.tags = taggedBase.tags ++ newTags taggedBase.tags defined.reduceOption) ∧
    (rows.flatMap (·.2)).map (·.slot) =
      slotsOf taggedInventory.basePath taggedInventory.endpoints ∧
    ∀ slot,
      match lastFor (rows.flatMap (·.2)) slot with
      | none => taggedDocument.slot? slot = (taggedBase.slot? slot).map withResponses
      | some j => ∃ o, taggedDocument.slot? slot = some o ∧ o.operationId = some j.id ∧
          (taggedSettings.list? (Settings.operationTagsKey j.id) = none → o.tags = j.labels) :=
  ⟨tagged_built, by decide +kernel, by decide +kernel,
    tags_registered taggedSettings IdStrategy.byHandler taggedBase taggedInventory usualDepth
      taggedDocument tagged_built⟩

end Witness

end Assembly

end ApiDoc
