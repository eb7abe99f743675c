import ApiDoc.Form.Document
import ApiDoc.Proofs.Document.Contents
import ApiDoc.Proofs.Document.Levels

/-!
# Where nodes stand in the JSON form

Every node of a document can be found in the JSON form of the document.
-/

set_option autoImplicit false

namespace ApiDoc

/-! ### Values inside values -/

inductive Json.Contains : Json → Json → Prop
  | self (j : Json) : Contains j j
  | item {js : List Json} {j k : Json} (hj : j ∈ js) (hk : Contains j k) : Contains (.array js) k
  | row {rows : List (String × Json)} {row : String × Json} {k : Json} (hrow : row ∈ rows)
    (hk : Contains row.2 k) : Contains (.object rows) k

theorem Json.Contains.trans {a b c : Json} (hab : a.Contains b) (hbc : b.Contains c) :
    a.Contains c := by
  induction hab with
  | self => exact hbc
  | item hj _ ih => exact .item hj (ih hbc)
  | row hrow _ ih => exact .row hrow (ih hbc)

section

variable {ρ α : Type} {name : String} {c : Codec α} {r : ρ} {k : Json}

def Field.Shows (f : Field ρ) (r : ρ) (k : Json) : Prop := ∃ j, f.write r = some j ∧ j.Contains k

theorem Field.shows_optional {get : ρ → Option α} {set : ρ → Option α → ρ} {x : α}
    (h : get r = some x) (hk : (c.encode x).Contains k) :
    (Field.mk name (.optional c) get set).Shows r k :=
  ⟨c.encode x, by simp [h], hk⟩

theorem Field.shows_list {get : ρ → List α} {set : ρ → List α → ρ} {x : α}
    (h : x ∈ get r) (hk : (c.encode x).Contains k) :
    (Field.mk name (.list c) get set).Shows r k := by
  have hne := List.ne_nil_of_mem h
  exact ⟨c.list.encode (get r), by simp [hne], .item (List.mem_map_of_mem h) hk⟩

theorem Field.shows_table {get : ρ → Ordered α} {set : ρ → Ordered α → ρ} {row : String × α}
    (h : row ∈ (get r).entries) (hk : (c.encode row.2).Contains k) :
    (Field.mk name (.table c) get set).Shows r k := by
  have hne := List.ne_nil_of_mem h
  exact ⟨c.table.encode (get r), by simp [Ordered.isEmpty, hne],
    .row (List.mem_map_of_mem (f := fun row => (row.1, c.encode row.2)) h) hk⟩

theorem Record.contains_encode {R : Record ρ} {f : Field ρ} (hf : f ∈ R.fields)
    (h : f.Shows r k) : (R.encode r).Contains k := by
  obtain ⟨j, hj, hk⟩ := h
  have hrow : (f.name, j) ∈ R.fields.filterMap fun f => (f.write r).map fun j => (f.name, j) :=
    List.mem_filterMap.mpr ⟨f, hf, by rw [hj, Option.map_some]⟩
  exact .row (List.mem_append_left _ hrow) hk

theorem Record.contains_rest {R : Record ρ} {row : String × Json} (h : row ∈ R.rest.write r)
    (hk : row.2.Contains k) : (R.encode r).Contains k :=
  .row (List.mem_append_right _ h) hk

theorem Record.contains_at {R : Record ρ} (name : String) {f : Field ρ}
    (hf : R.field? name = some f) (h : f.Shows r k) : (R.encode r).Contains k :=
  contains_encode (List.mem_of_find?_eq_some hf) h

end

/-! ### Nodes inside nodes -/

namespace Node

open Row

def toJson : Node → Json
  | .schema s => s.toJson
  | .response r => Response.codec.encode r
  | .parameter q => Parameter.codec.encode q
  | .sample e => Example.codec.encode e
  | .requestBody b => RequestBody.codec.encode b
  | .header h => Header.codec.encode h
  | .securityScheme s => SecurityScheme.codec.encode s
  | .link l => Link.codec.encode l
  | .callback c => Callback.codec.encode c
  | .pathItem _ i => PathItem.codec.encode i
  | .operation o => o.toJson
  | .server s => Server.codec.encode s
  | .tag t => Tag.codec.encode t
  | .requirement r => SecurityRequirement.codec.encode r

theorem contains_media {m : MediaType} {row : Row} (h : row ∈ ofMedia m ++ ofEncodings m) :
    m.toJson.Contains row.2.toJson := by
  rw [MediaType.toJson_eq]
  simp only [ofMedia, ofEncodings, List.mem_append, List.mem_flatMap, mem_under, mem_ofSlot,
    mem_ofTable] at h
  rcases h with (⟨s, hs, rfl⟩ | ⟨e, he, rfl⟩) | ⟨e, he, -, ⟨header, hh, rfl⟩, rfl⟩
  · exact Record.contains_at "schema" rfl (Field.shows_optional hs (.self _))
  · exact Record.contains_at "examples" rfl (Field.shows_table he (.self _))
  · have hencoding : ((EncodingOf.form MediaType.codec).codec.encode e.2).Contains
        (Header.codec.encode header.2) :=
      Record.contains_at "headers" rfl (Field.shows_table hh (.self _))
    exact Record.contains_at "encoding" rfl (Field.shows_table he hencoding)

theorem contains_content {c : Content} {row : Row} (h : row ∈ ofContent c ++ ofParts c) :
    ∃ e ∈ c.entries, (MediaType.codec.encode e.2).Contains row.2.toJson := by
  simp only [ofContent, ofParts, List.mem_append, List.mem_flatMap, mem_under] at h
  rcases h with ⟨e, he, r, hr, rfl⟩ | ⟨e, he, r, hr, rfl⟩
  · have hmedia := contains_media (List.mem_append_left (ofEncodings e.2) hr)
    exact ⟨e, he, hmedia⟩
  · have hparts := contains_media (List.mem_append_right (ofMedia e.2) hr)
    exact ⟨e, he, hparts⟩

theorem contains_schema {s : Schema} {row : Row} (h : row ∈ (Node.schema s).rows) :
    s.toJson.Contains row.2.toJson := by
  rw [Schema.toJson_eq]
  simp only [rows, List.mem_append, mem_ofTable, mem_ofSlot, mem_ofList, or_assoc] at h
  rcases h with ⟨e, he, rfl⟩ | ⟨c, hc, rfl⟩ | ⟨c, hc, rfl⟩ | ⟨c, hc, rfl⟩ | ⟨c, hc, rfl⟩ |
    ⟨c, hc, rfl⟩ | ⟨c, hc, rfl⟩
  · exact Record.contains_at "properties" rfl (Field.shows_table he (.self _))
  · exact Record.contains_at "items" rfl (Field.shows_optional hc (.self _))
  · exact Record.contains_at "not" rfl (Field.shows_optional hc (.self _))
  · exact Record.contains_at "allOf" rfl (Field.shows_list hc (.self _))
  · exact Record.contains_at "anyOf" rfl (Field.shows_list hc (.self _))
  · exact Record.contains_at "oneOf" rfl (Field.shows_list hc (.self _))
  · have hadditional : s.additional = some (.schema c) := by
      rcases ha : s.additional with _ | _ | u <;> rw [ha] at hc <;> cases hc
      rfl
    exact Record.contains_at "additionalProperties" rfl
      (Field.shows_optional hadditional (.self _))

theorem contains_pathItem {path : String} {i : PathItem} {row : Row}
    (h : row ∈ (Node.pathItem path i).rows) :
    (PathItem.codec.encode i).Contains row.2.toJson := by
  simp only [rows, List.mem_append, List.mem_map, mem_ofList] at h
  rcases h with (⟨e, he, rfl⟩ | ⟨q, hq, rfl⟩) | ⟨s, hs, rfl⟩
  · have hslot : PathItemOf.slot Operation.codec e.1 ∈ (PathItemOf.form Operation.codec).fields :=
      List.mem_append_left _ (List.mem_append_right _ (List.mem_map_of_mem e.1.mem_all))
    exact Record.contains_encode hslot (Field.shows_optional (ByMethod.mem_toList.mp he) (.self _))
  · exact Record.contains_at "parameters" rfl (Field.shows_list hq (.self _))
  · exact Record.contains_at "servers" rfl (Field.shows_list hs (.self _))

theorem contains_operation {o : Operation} {row : Row} (h : row ∈ (Node.operation o).rows) :
    o.toJson.Contains row.2.toJson := by
  rw [Operation.toJson_eq]
  simp only [rows, ofResponses, List.mem_append, List.mem_flatMap, Option.mem_toList, mem_ofTable,
    mem_ofSlot, mem_ofList, or_assoc] at h
  rcases h with ⟨q, hq, rfl⟩ | ⟨b, hb, rfl⟩ | ⟨r, hr, e, he, rfl⟩ | ⟨e, he, rfl⟩ | ⟨s, hs, rfl⟩ |
    ⟨sets, hsets, q, hq, rfl⟩
  · exact Record.contains_at "parameters" rfl (Field.shows_list hq (.self _))
  · exact Record.contains_at "requestBody" rfl (Field.shows_optional hb (.self _))
  · have hresponse : (Responses.codec.encode r).Contains (Response.codec.encode e.2) :=
      .row (List.mem_map_of_mem (f := fun row => (row.1, Response.codec.encode row.2)) he) (.self _)
    exact Record.contains_at "responses" rfl (Field.shows_optional hr hresponse)
  · exact Record.contains_at "callbacks" rfl (Field.shows_table he (.self _))
  · exact Record.contains_at "servers" rfl (Field.shows_list hs (.self _))
  · have hset : ((Codec.list SecurityRequirement.codec).encode sets).Contains
        (SecurityRequirement.codec.encode q) :=
      .item (List.mem_map_of_mem hq) (.self _)
    exact Record.contains_at "security" rfl (Field.shows_optional hsets hset)

theorem contains_response {r : Response} {row : Row}
    (h : row ∈ (Node.response r).rows ++ (Node.response r).aside) :
    (Response.codec.encode r).Contains row.2.toJson := by
  have h : row ∈ ofTable "headers" .header r.headers ∨ row ∈ ofTable "links" .link r.links ∨
      row ∈ ofContent r.content ++ ofParts r.content := by
    simp only [rows, aside, List.mem_append] at h ⊢
    tauto
  rcases h with h | h | h
  · obtain ⟨e, he, rfl⟩ := mem_ofTable.mp h
    exact Record.contains_at "headers" rfl (Field.shows_table he (.self _))
  · obtain ⟨e, he, rfl⟩ := mem_ofTable.mp h
    exact Record.contains_at "links" rfl (Field.shows_table he (.self _))
  · obtain ⟨e, he, hc⟩ := contains_content h
    exact Record.contains_at "content" rfl (Field.shows_table he hc)

theorem contains_parameter {q : Parameter} {row : Row}
    (h : row ∈ (Node.parameter q).rows ++ (Node.parameter q).aside) :
    (Parameter.codec.encode q).Contains row.2.toJson := by
  rw [rows, aside, List.append_assoc, List.append_assoc, List.mem_append, List.mem_append] at h
  rcases h with h | h | h
  · obtain ⟨s, hs, rfl⟩ := mem_ofSlot.mp h
    exact Record.contains_at "schema" rfl (Field.shows_optional hs (.self _))
  · obtain ⟨e, he, rfl⟩ := mem_ofTable.mp h
    exact Record.contains_at "examples" rfl (Field.shows_table he (.self _))
  · obtain ⟨e, he, hc⟩ := contains_content h
    exact Record.contains_at "content" rfl (Field.shows_table he hc)

theorem contains_header {hd : Header} {row : Row}
    (h : row ∈ (Node.header hd).rows ++ (Node.header hd).aside) :
    (Header.codec.encode hd).Contains row.2.toJson := by
  have h : row ∈ ofSlot "schema" .schema hd.schema ∨
      row ∈ ofTable "examples" .sample hd.examples ∨
        row ∈ ofContent hd.content ++ ofParts hd.content := by
    simp only [rows, aside, List.mem_append] at h ⊢
    tauto
  rcases h with h | h | h
  · obtain ⟨s, hs, rfl⟩ := mem_ofSlot.mp h
    exact Record.contains_at "schema" rfl (Field.shows_optional hs (.self _))
  · obtain ⟨e, he, rfl⟩ := mem_ofTable.mp h
    exact Record.contains_at "examples" rfl (Field.shows_table he (.self _))
  · obtain ⟨e, he, hc⟩ := contains_content h
    exact Record.contains_at "content" rfl (Field.shows_table he hc)

/-- The JSON form of what stands right below a node is part of the node's. -/
theorem contains_row {n : Node} {row : Row} (h : row ∈ n.rows ++ n.aside) :
    n.toJson.Contains row.2.toJson := by
  cases n with
  | schema s =>
    simp only [aside, List.append_nil] at h
    exact contains_schema h
  | response r => exact contains_response h
  | parameter q => exact contains_parameter h
  | requestBody b =>
    obtain ⟨e, he, hc⟩ := contains_content h
    exact Record.contains_at "content" rfl (Field.shows_table he hc)
  | header hd => exact contains_header h
  | link l =>
    simp only [aside, List.append_nil] at h
    obtain ⟨s, hs, rfl⟩ := mem_ofSlot.mp h
    exact Record.contains_at "server" rfl (Field.shows_optional hs (.self _))
  | callback c =>
    simp only [aside, List.append_nil] at h
    obtain ⟨e, he, rfl⟩ := List.mem_map.mp h
    exact Record.contains_rest
      (List.mem_map_of_mem (f := fun row => (row.1, PathItem.codec.encode row.2)) he) (.self _)
  | pathItem path i =>
    simp only [aside, List.append_nil] at h
    exact contains_pathItem h
  | operation o =>
    simp only [aside, List.append_nil] at h
    exact contains_operation h
  | sample _ | securityScheme _ | server _ | tag _ | requirement _ => cases h

/-- The JSON form of whatever stands in a node is part of the node's. -/
theorem Includes.toJson {n m : Node} (h : n.Includes m) : n.toJson.Contains m.toJson := by
  induction h with
  | self => exact .self _
  | child hr _ ih => exact (contains_row hr).trans ih

end Node

namespace OpenApi

open Row

theorem contains_component {c : Components} {row : Row} (h : row ∈ ofComponents c) :
    (Components.codec.encode c).Contains row.2.toJson := by
  simp only [ofComponents, List.mem_append, mem_ofTable, or_assoc] at h
  rcases h with ⟨e, he, rfl⟩ | ⟨e, he, rfl⟩ | ⟨e, he, rfl⟩ | ⟨e, he, rfl⟩ | ⟨e, he, rfl⟩ |
    ⟨e, he, rfl⟩ | ⟨e, he, rfl⟩ | ⟨e, he, rfl⟩ | ⟨e, he, rfl⟩
  · exact Record.contains_at "schemas" rfl (Field.shows_table he (.self _))
  · exact Record.contains_at "responses" rfl (Field.shows_table he (.self _))
  · exact Record.contains_at "parameters" rfl (Field.shows_table he (.self _))
  · exact Record.contains_at "examples" rfl (Field.shows_table he (.self _))
  · exact Record.contains_at "requestBodies" rfl (Field.shows_table he (.self _))
  · exact Record.contains_at "headers" rfl (Field.shows_table he (.self _))
  · exact Record.contains_at "securitySchemes" rfl (Field.shows_table he (.self _))
  · exact Record.contains_at "links" rfl (Field.shows_table he (.self _))
  · exact Record.contains_at "callbacks" rfl (Field.shows_table he (.self _))

theorem contains_row {d : OpenApi} {row : Row} (h : row ∈ d.rows) :
    d.toJson.Contains row.2.toJson := by
  simp only [rows, List.mem_append, List.mem_flatMap, List.mem_map, mem_ofList, Option.mem_toList,
    or_assoc] at h
  rcases h with ⟨c, hc, h⟩ | ⟨e, he, rfl⟩ | ⟨s, hs, rfl⟩ | ⟨t, ht, rfl⟩ | ⟨q, hq, rfl⟩
  · obtain ⟨r, hr, rfl⟩ := mem_under.mp h
    have hcomponent := contains_component hr
    exact Record.contains_at "components" rfl (Field.shows_optional hc hcomponent)
  · exact Record.contains_at "paths" rfl (Field.shows_table he (.self _))
  · exact Record.contains_at "servers" rfl (Field.shows_list hs (.self _))
  · exact Record.contains_at "tags" rfl (Field.shows_list ht (.self _))
  · exact Record.contains_at "security" rfl (Field.shows_list hq (.self _))

/-- The JSON form of whatever stands in a document is part of the document's. -/
theorem Includes.toJson {d : OpenApi} {n : Node} (h : d.Includes n) :
    d.toJson.Contains n.toJson := by
  obtain ⟨row, hrow, hn⟩ := h
  exact (contains_row hrow).trans hn.toJson

end OpenApi

end ApiDoc
