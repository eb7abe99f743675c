import ApiDoc.Proofs.Document.Thinner
import ApiDoc.Proofs.Pruning.Walk

/-!
# The JSON form of a pruned document

Where a policy leaves out parts of what it is asked about and adds nothing, the walk
leaves out parts of the whole document.
-/

set_option autoImplicit false

namespace ApiDoc

namespace Policy

open Row

def Thins (p : Policy Id) (n : Node) : Prop :=
  ∀ b, p.leaves n = some b → b.toJson.Thinner n.toJson

/-! ### Kinds of nodes -/

section Kinds

structure Walks {α : Type} (p : Policy Id) (w : α → Node) (f : α → Id (Option α))
    (c : Codec α) : Prop where
  leaves : ∀ a, p.leaves (w a) = (f a).run.map w
  written : ∀ a, (w a).toJson = c.encode a

variable {α : Type} {p : Policy Id}

theorem walks_schema : Walks p .schema p.pruneSchema Schema.codec := ⟨fun _ => rfl, fun _ => rfl⟩

theorem walks_response : Walks p .response p.pruneResponse Response.codec :=
  ⟨fun _ => rfl, fun _ => rfl⟩

theorem walks_parameter : Walks p .parameter p.pruneParameter Parameter.codec :=
  ⟨fun _ => rfl, fun _ => rfl⟩

theorem walks_sample : Walks p .sample p.sample Example.codec := ⟨fun _ => rfl, fun _ => rfl⟩

theorem walks_body : Walks p .requestBody p.pruneBody RequestBody.codec :=
  ⟨fun _ => rfl, fun _ => rfl⟩

theorem walks_header : Walks p .header p.pruneHeader Header.codec := ⟨fun _ => rfl, fun _ => rfl⟩

theorem walks_securityScheme : Walks p .securityScheme p.securityScheme SecurityScheme.codec :=
  ⟨fun _ => rfl, fun _ => rfl⟩

theorem walks_link : Walks p .link p.pruneLink Link.codec := ⟨fun _ => rfl, fun _ => rfl⟩

theorem walks_callback : Walks p .callback p.pruneCallback Callback.codec :=
  ⟨fun _ => rfl, fun _ => rfl⟩

theorem walks_pathItem (path : String) :
    Walks p (.pathItem path) (p.prunePathItem path) PathItem.codec :=
  ⟨fun _ => rfl, fun _ => rfl⟩

theorem walks_operation : Walks p .operation p.pruneOperation Operation.codec :=
  ⟨fun _ => rfl, fun _ => rfl⟩

theorem walks_server : Walks p .server p.server Server.codec := ⟨fun _ => rfl, fun _ => rfl⟩

theorem walks_tag : Walks p .tag p.tag Tag.codec := ⟨fun _ => rfl, fun _ => rfl⟩

theorem walks_requirement : Walks p .requirement p.requirement SecurityRequirement.codec :=
  ⟨fun _ => rfl, fun _ => rfl⟩

namespace Walks

variable {w : α → Node} {f : α → Id (Option α)} {c : Codec α} {ρ : Type} {r' r : ρ}
  {name : String} (hw : Walks p w f c)

include hw

theorem thinner {a b : α} (h : p.Thins (w a)) (hb : (f a).run = some b) :
    (c.encode b).Thinner (c.encode a) := by
  have hleft := h (w b) (by rw [hw.leaves, hb, Option.map_some])
  rwa [hw.written, hw.written] at hleft

theorem slot {get : ρ → Option α} {set : ρ → Option α → ρ}
    (hget : get r' = (Policy.slot f (get r)).run) (h : ∀ a, get r = some a → p.Thins (w a)) :
    (Field.mk name (.optional c) get set).Thins r' r :=
  Field.thins_optional (hget.trans (run_slot _ _)) fun a ha _ hb => hw.thinner (h a ha) hb

theorem list {get : ρ → List α} {set : ρ → List α → ρ} (hget : get r' = (items f (get r)).run)
    (h : ∀ a ∈ get r, p.Thins (w a)) : (Field.mk name (.list c) get set).Thins r' r :=
  Field.thins_list (hget.trans (run_items _ _)) fun a ha _ hb => hw.thinner (h a ha) hb

theorem table {get : ρ → Ordered α} {set : ρ → Ordered α → ρ}
    (hget : get r' = (Policy.table f (get r)).run) (h : (get r).All fun a => p.Thins (w a)) :
    (Field.mk name (.table c) get set).Thins r' r :=
  Field.thins_table (hget.trans (run_table _ _)) fun e he _ hb => hw.thinner (h e he) hb

end Walks

end Kinds

/-! ### What the walk leaves of each node -/

section Payloads

variable {p : Policy Id}

theorem thinner_media {m : MediaType} (hs : ∀ s, m.schema = some s → p.Thins (.schema s))
    (he : m.examples.All fun e => p.Thins (.sample e)) :
    (MediaType.codec.encode (p.pruneMedia m).run).Thinner (MediaType.codec.encode m) := by
  simp only [MediaType.codec]
  rw [MediaType.toJson_eq, MediaType.toJson_eq]
  apply Record.thinner_encode
  · simp only [MediaType.form, List.forall_mem_cons]
    refine ⟨?_, Field.thins_same rfl, ?_, Field.thins_same rfl, List.forall_mem_nil _⟩
    · exact walks_schema.slot rfl hs
    · exact walks_sample.table rfl he
  · exact .self _

theorem thins_content {ρ : Type} {r' r : ρ} {name : String} {get : ρ → Content}
    {set : ρ → Content → ρ} (hget : get r' = (p.pruneContent (get r)).run)
    (h : ∀ row ∈ ofContent (get r), p.Thins row.2) :
    (Field.mk name (.table MediaType.codec) get set).Thins r' r := by
  have h := forall_ofContent.mp h
  apply Field.thins_table (f := fun m => some (p.pruneMedia m).run) (hget.trans (run_table _ _))
  intro e he m hm
  obtain ⟨hschema, hexamples⟩ := h e he
  cases hm
  exact thinner_media hschema hexamples

theorem thinner_response {r : Response} (h : ∀ row ∈ (Node.response r).rows, p.Thins row.2) :
    (p.inside (.response r)).toJson.Thinner (Node.response r).toJson := by
  simp only [Node.rows, List.forall_mem_append, forall_ofTable] at h
  obtain ⟨⟨hheaders, hcontent⟩, hlinks⟩ := h
  apply Record.thinner_encode
  · simp only [Response.form, List.forall_mem_cons]
    refine ⟨Field.thins_same rfl, Field.thins_same rfl, ?_, ?_, ?_, List.forall_mem_nil _⟩
    · exact walks_header.table rfl hheaders
    · exact thins_content rfl hcontent
    · exact walks_link.table rfl hlinks
  · exact .self _

theorem thinner_parameter {q : Parameter} (h : ∀ row ∈ (Node.parameter q).rows, p.Thins row.2) :
    (p.inside (.parameter q)).toJson.Thinner (Node.parameter q).toJson := by
  simp only [Node.rows, List.forall_mem_append, forall_ofSlot, forall_ofTable] at h
  obtain ⟨⟨hschema, hexamples⟩, hcontent⟩ := h
  apply Record.thinner_encode
  · simp only [Parameter.form, List.forall_mem_cons]
    repeat' apply And.intro
    any_goals exact Field.thins_same rfl
    · exact walks_schema.slot rfl hschema
    · exact walks_sample.table rfl hexamples
    · exact thins_content rfl hcontent
    · exact List.forall_mem_nil _
  · exact .self _

theorem thinner_body {b : RequestBody} (h : ∀ row ∈ (Node.requestBody b).rows, p.Thins row.2) :
    (p.inside (.requestBody b)).toJson.Thinner (Node.requestBody b).toJson := by
  apply Record.thinner_encode
  · simp only [RequestBody.form, List.forall_mem_cons]
    repeat' apply And.intro
    any_goals exact Field.thins_same rfl
    · exact thins_content rfl h
    · exact List.forall_mem_nil _
  · exact .self _

theorem thinner_header {hd : Header} (h : ∀ row ∈ (Node.header hd).rows, p.Thins row.2) :
    (p.inside (.header hd)).toJson.Thinner (Node.header hd).toJson := by
  simp only [Node.rows, List.forall_mem_append, forall_ofSlot] at h
  obtain ⟨hschema, hcontent⟩ := h
  apply Record.thinner_encode
  · simp only [HeaderOf.form, List.forall_mem_cons]
    repeat' apply And.intro
    any_goals exact Field.thins_same rfl
    · exact walks_schema.slot rfl hschema
    · exact thins_content rfl hcontent
    · exact List.forall_mem_nil _
  · exact .self _

theorem thinner_link {l : Link} (h : ∀ row ∈ (Node.link l).rows, p.Thins row.2) :
    (p.inside (.link l)).toJson.Thinner (Node.link l).toJson := by
  have h := forall_ofSlot.mp h
  apply Record.thinner_encode
  · simp only [Link.form, List.forall_mem_cons]
    repeat' apply And.intro
    any_goals exact Field.thins_same rfl
    · exact walks_server.slot rfl h
    · exact List.forall_mem_nil _
  · exact .self _

end Payloads

section Schemas

variable {p : Policy Id}

theorem thins_keyword {s' s : Schema} (h : s'.keywords = s.keywords) (f : Field Keywords) :
    (Schema.keyword f).Thins s' s :=
  Field.thins_same (congrArg f.write h)

theorem thins_additional {s' s : Schema} {f : Schema → Id (Option Schema)} {name : String}
    {set : Schema → Option (Additional Schema) → Schema}
    (hget : s'.additional = (additional f s.additional).run)
    (h : ∀ c, Schema.additionalSchema? s.additional = some c → ∀ t, (f c).run = some t →
      (Schema.codec.encode t).Thinner (Schema.codec.encode c)) :
    (Field.mk name (.optional (Additional.codec Schema.codec)) (·.additional) set).Thins s' s := by
  intro j hj
  simp only [Field.write_mk, Cell.write_optional, hget] at hj ⊢
  rcases ha : s.additional with _ | value | c
  · rw [ha] at hj
    cases hj
  · rw [ha] at hj
    exact ⟨j, hj, .self j⟩
  · simp only [ha, additional, Id.run_bind, Id.run_pure, Option.map_map,
      Option.map_eq_some_iff] at hj
    obtain ⟨t, ht, rfl⟩ := hj
    exact ⟨Schema.codec.encode c, rfl, h c (by rw [ha]; rfl) t ht⟩

theorem thinner_schema {s : Schema} (h : ∀ row ∈ (Node.schema s).rows, p.Thins row.2) :
    (p.inside (.schema s)).toJson.Thinner (Node.schema s).toJson := by
  simp only [Node.rows, List.forall_mem_append, forall_ofSlot, forall_ofTable, forall_ofList] at h
  obtain ⟨⟨⟨⟨⟨⟨hproperties, hitems⟩, hnegated⟩, hallOf⟩, hanyOf⟩, honeOf⟩, hadditional⟩ := h
  simp only [inside, Node.toJson]
  rw [Schema.toJson_eq, Schema.toJson_eq s, run_subschemas]
  apply Record.thinner_encode
  · simp only [Schema.form, Schema.subschemas, List.forall_mem_append, List.forall_mem_map,
      List.forall_mem_cons]
    repeat' apply And.intro
    any_goals exact Field.thins_same rfl
    · exact List.forall_mem_nil _
    · exact fun f _ => thins_keyword rfl f
    · exact fun f _ => thins_keyword rfl f
    · exact walks_schema.slot rfl hitems
    · exact walks_schema.table rfl hproperties
    · exact thins_additional rfl fun c hc _ ht => walks_schema.thinner (hadditional c hc) ht
    · exact walks_schema.list rfl hallOf
    · exact walks_schema.list rfl hanyOf
    · exact walks_schema.list rfl honeOf
    · exact walks_schema.slot rfl hnegated
    · exact List.forall_mem_nil _
    · exact fun f _ => thins_keyword rfl f
  · exact .self _

end Schemas

section Operations

variable {p : Policy Id}

theorem thinner_callback {c : Callback} (h : ∀ row ∈ (Node.callback c).rows, p.Thins row.2) :
    (p.inside (.callback c)).toJson.Thinner (Node.callback c).toJson := by
  apply Record.thinner_encode
  · simp only [CallbackOf.form, List.forall_mem_cons]
    exact ⟨Field.thins_same rfl, List.forall_mem_nil _⟩
  · have hitem : ∀ row ∈ c.expressions.entries, p.Thins (.pathItem row.1 row.2) :=
      fun row hrow => h ([row.1], .pathItem row.1 row.2) (List.mem_map_of_mem hrow)
    exact Codec.thinner_table fun row hrow _ hi =>
      (walks_pathItem row.1).thinner (hitem row hrow) hi

theorem thinner_pathItem {path : String} {i : PathItem}
    (h : ∀ row ∈ (Node.pathItem path i).rows, p.Thins row.2) :
    (p.inside (.pathItem path i)).toJson.Thinner (Node.pathItem path i).toJson := by
  simp only [Node.rows, List.forall_mem_append, forall_ofList, List.forall_mem_map] at h
  obtain ⟨⟨hslots, hparameters⟩, hservers⟩ := h
  have hslot : ∀ m, (PathItemOf.slot Operation.codec m).Thins
      (p.insidePathItem p.pruneOperation i).run i := by
    intro m
    apply Field.thins_optional (at?_run_slots _ _ m)
    intro o ho b hb
    exact walks_operation.thinner (hslots (m, o) (ByMethod.mem_toList.mpr ho)) hb
  apply Record.thinner_encode
  · simp only [PathItemOf.form, List.forall_mem_append, List.forall_mem_map, List.forall_mem_cons]
    repeat' apply And.intro
    any_goals exact Field.thins_same rfl
    · exact List.forall_mem_nil _
    · exact fun m _ => hslot m
    · exact walks_server.list rfl hservers
    · exact walks_parameter.list rfl hparameters
    · exact List.forall_mem_nil _
  · exact .self _

theorem thinner_operation {o : Operation} (h : ∀ row ∈ (Node.operation o).rows, p.Thins row.2) :
    (p.inside (.operation o)).toJson.Thinner (Node.operation o).toJson := by
  simp only [Node.rows, List.forall_mem_append, forall_ofList, forall_ofSlot, forall_ofTable,
    List.forall_mem_flatMap, Option.mem_toList, ofResponses] at h
  obtain ⟨⟨⟨⟨⟨hparameters, hbody⟩, hresponses⟩, hcallbacks⟩, hservers⟩, hsecurity⟩ := h
  have hleft : ∀ r, o.responses = some r →
      (Responses.codec.encode (p.pruneResponses r).run).Thinner (Responses.codec.encode r) := by
    intro r hr
    rw [run_pruneResponses, run_table]
    exact Codec.thinner_table (f := fun _ a => (p.pruneResponse a).run) fun e he _ hb =>
      walks_response.thinner (hresponses r hr e he) hb
  have hsets : ∀ sets, o.security = some sets →
      ((Codec.list SecurityRequirement.codec).encode (items p.requirement sets).run).Thinner
        ((Codec.list SecurityRequirement.codec).encode sets) := by
    intro sets hs
    rw [run_items]
    exact Codec.thinner_list fun q hq _ hb =>
      walks_requirement.thinner (hsecurity sets hs q hq) hb
  simp only [inside, Node.toJson]
  rw [Operation.toJson_eq, Operation.toJson_eq o]
  apply Record.thinner_encode
  · simp only [Operation.form, List.forall_mem_cons]
    repeat' apply And.intro
    any_goals exact Field.thins_same rfl
    · exact walks_parameter.list rfl hparameters
    · exact walks_body.slot rfl hbody
    · exact Field.thins_map rfl hleft
    · exact walks_callback.table rfl hcallbacks
    · exact Field.thins_map rfl hsets
    · exact walks_server.list rfl hservers
    · exact List.forall_mem_nil _
  · exact .self _

end Operations

/-! ### The whole document -/

structure Reduces (p : Policy Id) : Prop where
  modest : p.Modest
  rows : ∀ {n a}, p.ask n = some a → a.rows ⊆ n.rows
  aside : ∀ {n a}, p.ask n = some a → a.aside ⊆ n.aside
  thinner : ∀ {n a}, p.ask n = some a → a.toJson.Thinner n.toJson

variable {p : Policy Id}

theorem thinner_inside {n : Node} (h : ∀ row ∈ n.rows, p.Thins row.2) :
    (p.inside n).toJson.Thinner n.toJson := by
  cases n with
  | schema s => exact thinner_schema h
  | response r => exact thinner_response h
  | parameter q => exact thinner_parameter h
  | requestBody b => exact thinner_body h
  | header hd => exact thinner_header h
  | link l => exact thinner_link h
  | callback c => exact thinner_callback h
  | pathItem path i => exact thinner_pathItem h
  | operation o => exact thinner_operation h
  | sample _ | securityScheme _ | server _ | tag _ | requirement _ => exact .self _

theorem Reduces.thins (hp : p.Reduces) (n : Node) : p.Thins n := by
  induction n using Node.induct with
  | h n ih =>
    intro b hb
    obtain ⟨a, ha, rfl⟩ := (leaves_eq_some_iff hp.modest).mp hb
    have hinside := thinner_inside fun row hrow => ih row (hp.rows ha hrow)
    exact hinside.trans (hp.thinner ha)

theorem thinner_components (h : ∀ n, p.Thins n) (c : Components) :
    (Components.codec.encode (p.pruneComponents c).run).Thinner (Components.codec.encode c) := by
  apply Record.thinner_encode
  · simp only [Components.form, List.forall_mem_cons]
    refine ⟨?_, ?_, ?_, ?_, ?_, ?_, ?_, ?_, ?_, List.forall_mem_nil _⟩
    · exact walks_schema.table rfl fun _ _ => h _
    · exact walks_response.table rfl fun _ _ => h _
    · exact walks_parameter.table rfl fun _ _ => h _
    · exact walks_sample.table rfl fun _ _ => h _
    · exact walks_body.table rfl fun _ _ => h _
    · exact walks_header.table rfl fun _ _ => h _
    · exact walks_securityScheme.table rfl fun _ _ => h _
    · exact walks_link.table rfl fun _ _ => h _
    · exact walks_callback.table rfl fun _ _ => h _
  · exact .self _

/-- What the walk makes of a document is the document with parts left out. -/
theorem Reduces.thinner_insideDocument (hp : p.Reduces) (d : OpenApi) :
    (p.insideDocument d).toJson.Thinner d.toJson := by
  have h := hp.thins
  apply Record.thinner_encode
  · simp only [OpenApi.form, List.forall_mem_cons]
    repeat' apply And.intro
    any_goals exact Field.thins_same rfl
    · exact walks_server.list rfl fun _ _ => h _
    · exact Field.thins_rows (f := fun path i => (p.prunePathItem path i).run) rfl
        fun e _ _ hb => (walks_pathItem e.1).thinner (h _) hb
    · exact Field.thins_map rfl fun c _ => thinner_components h c
    · exact walks_requirement.list rfl fun _ _ => h _
    · exact walks_tag.list rfl fun _ _ => h _
    · exact List.forall_mem_nil _
  · exact .self _

/-! ### Where the nodes of the result come from -/

theorem ofParts_pruneContent (c : Content) : ofParts (p.pruneContent c).run = ofParts c := by
  rw [run_pruneContent]
  simp only [ofParts, Ordered.entries_mapValues, List.flatMap_map]
  rfl

theorem aside_inside (n : Node) : (p.inside n).aside = n.aside := by
  cases n with
  | response r => exact ofParts_pruneContent r.content
  | parameter q => exact ofParts_pruneContent q.content
  | requestBody b => exact ofParts_pruneContent b.content
  | header h => exact congrArg (_ ++ ·) (ofParts_pruneContent h.content)
  | _ => rfl

def Comes (p : Policy Id) (m n : Node) : Prop :=
  m = n ∨ ∃ a, p.ask n = some a ∧ m = p.inside a

theorem Reduces.includes_left (hp : p.Reduces) {n b m : Node} (hb : p.leaves n = some b)
    (h : b.Includes m) : ∃ k, n.Includes k ∧ p.Comes m k := by
  induction h generalizing n with
  | self =>
    obtain ⟨a, ha, rfl⟩ := (leaves_eq_some_iff hp.modest).mp hb
    exact ⟨n, .self n, Or.inr ⟨a, ha, rfl⟩⟩
  | @child b m row hr hm ih =>
    obtain ⟨a, ha, rfl⟩ := (leaves_eq_some_iff hp.modest).mp hb
    rw [rows_inside, aside_inside, List.mem_append] at hr
    rcases hr with hr | hr
    · obtain ⟨old, hold, c, hc, rfl⟩ := mem_sift.mp hr
      obtain ⟨k, hk, hcomes⟩ := ih hc
      exact ⟨k, .child (List.mem_append_left _ (hp.rows ha hold)) hk, hcomes⟩
    · exact ⟨m, .child (List.mem_append_right _ (hp.aside ha hr)) hm, Or.inl rfl⟩

theorem Reduces.includes_insideDocument (hp : p.Reduces) {d : OpenApi} {m : Node}
    (h : (p.insideDocument d).Includes m) : ∃ n, d.Includes n ∧ p.Comes m n := by
  obtain ⟨row, hrow, hm⟩ := h
  rw [rows_insideDocument] at hrow
  obtain ⟨old, hold, b, hb, rfl⟩ := mem_sift.mp hrow
  obtain ⟨n, hn, hcomes⟩ := hp.includes_left hb hm
  exact ⟨n, ⟨old, hold, hn⟩, hcomes⟩

end Policy

end ApiDoc
