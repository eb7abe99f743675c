import ApiDoc.Document.Basic
import ApiDoc.Document.Overlay

/-!
# References

The references of schemas, wherever in a node of the document the schemas stand.
References of other kinds, such as those to parameters or responses, are not
among them.
-/

set_option autoImplicit false

namespace ApiDoc

namespace Schema

mutual
def references : Schema → List String
  | ⟨reference, _, properties, items, negated, allOf, anyOf, oneOf, additional⟩ =>
    reference.toList ++ referencesOfRows properties.rows ++ referencesOfOption items
      ++ referencesOfOption negated ++ referencesOfList allOf ++ referencesOfList anyOf
      ++ referencesOfList oneOf ++ referencesOfRest additional
def referencesOfRows {keys : List String} : Ordered.Rows Schema keys → List String
  | .nil => []
  | .cons s rows => s.references ++ referencesOfRows rows
def referencesOfList : List Schema → List String
  | [] => []
  | s :: ss => s.references ++ referencesOfList ss
def referencesOfOption : Option Schema → List String
  | none => []
  | some s => s.references
def referencesOfRest : Option (Additional Schema) → List String
  | some (.schema s) => s.references
  | _ => []
end

end Schema

namespace MediaType

mutual
def references : MediaType → List String
  | ⟨schema, _, _, encoding, _⟩ =>
    Schema.referencesOfOption schema ++ referencesOfEncodings encoding.rows
def referencesOfEncodings {keys : List String} :
    Ordered.Rows (EncodingOf MediaType) keys → List String
  | .nil => []
  | .cons ⟨_, headers, _, _, _, _⟩ rows =>
    referencesOfHeaders headers.rows ++ referencesOfEncodings rows
def referencesOfHeaders {keys : List String} : Ordered.Rows (HeaderOf MediaType) keys → List String
  | .nil => []
  | .cons ⟨_, _, _, _, _, _, _, schema, _, _, content, _⟩ rows =>
    Schema.referencesOfOption schema ++ referencesOfContent content.rows
      ++ referencesOfHeaders rows
def referencesOfContent {keys : List String} : Ordered.Rows MediaType keys → List String
  | .nil => []
  | .cons m rows => m.references ++ referencesOfContent rows
end

end MediaType

namespace HeaderOf

def references (h : Header) : List String :=
  Schema.referencesOfOption h.schema ++ MediaType.referencesOfContent h.content.rows

end HeaderOf

namespace Parameter

def references (p : Parameter) : List String :=
  Schema.referencesOfOption p.schema ++ MediaType.referencesOfContent p.content.rows

end Parameter

namespace RequestBody

def references (b : RequestBody) : List String := MediaType.referencesOfContent b.content.rows

end RequestBody

namespace Response

def references (r : Response) : List String :=
  MediaType.referencesOfHeaders r.headers.rows ++ MediaType.referencesOfContent r.content.rows

end Response

namespace Responses

def references (rs : Responses) : List String := rs.entries.values.flatMap Response.references

end Responses

namespace Operation

mutual
def references : Operation → List String
  | ⟨_, _, _, _, _, parameters, requestBody, responses, callbacks, _, _, _, _⟩ =>
    parameters.flatMap Parameter.references ++ requestBody.toList.flatMap RequestBody.references
      ++ responses.toList.flatMap Responses.references ++ referencesOfCallbacks callbacks.rows
def referencesOfCallbacks {keys : List String} :
    Ordered.Rows (CallbackOf Operation) keys → List String
  | .nil => []
  | .cons ⟨_, expressions⟩ rows =>
    referencesOfItems expressions.rows ++ referencesOfCallbacks rows
def referencesOfItems {keys : List String} : Ordered.Rows (PathItemOf Operation) keys → List String
  | .nil => []
  | .cons ⟨_, _, _, ⟨get, put, post, delete, options, head, patch, trace⟩, _, parameters, _⟩
      rows =>
    parameters.flatMap Parameter.references ++ referencesOfSlot get ++ referencesOfSlot put
      ++ referencesOfSlot post ++ referencesOfSlot delete ++ referencesOfSlot options
      ++ referencesOfSlot head ++ referencesOfSlot patch ++ referencesOfSlot trace
      ++ referencesOfItems rows
def referencesOfSlot : Option Operation → List String
  | none => []
  | some o => o.references
end

end Operation

namespace CallbackOf

def references (c : Callback) : List String := Operation.referencesOfItems c.expressions.rows

end CallbackOf

/-! ### Where references may point -/

def Within (known : String → Prop) (rs : List String) : Prop := ∀ r ∈ rs, known r

section

variable {known : String → Prop}

@[simp] theorem within_nil : Within known [] := List.forall_mem_nil _

@[simp] theorem within_append {rs ss : List String} :
    Within known (rs ++ ss) ↔ Within known rs ∧ Within known ss := List.forall_mem_append

@[simp] theorem within_flatMap {α : Type} {f : α → List String} {xs : List α} :
    Within known (xs.flatMap f) ↔ ∀ x ∈ xs, Within known (f x) := by
  simp only [Within, List.mem_flatMap]
  constructor
  · exact fun h x hx r hr => h r ⟨x, hx, hr⟩
  · rintro h r ⟨x, hx, hr⟩
    exact h x hx r hr

namespace Schema

structure Parts (known : String → Prop) (s : Schema) : Prop where
  reference : ∀ r ∈ s.reference, known r
  properties : s.properties.All fun c => Within known c.references
  items : ∀ c ∈ s.items, Within known c.references
  negated : ∀ c ∈ s.negated, Within known c.references
  allOf : ∀ c ∈ s.allOf, Within known c.references
  anyOf : ∀ c ∈ s.anyOf, Within known c.references
  oneOf : ∀ c ∈ s.oneOf, Within known c.references
  additional : ∀ c, s.additional = some (.schema c) → Within known c.references

theorem within_rows {keys : List String} {rows : Ordered.Rows Schema keys} :
    Within known (referencesOfRows rows) ↔
      ∀ row ∈ rows.toList, Within known row.2.references := by
  induction rows with
  | nil => simp [referencesOfRows, Ordered.Rows.toList]
  | cons s rows ih => simp [referencesOfRows, Ordered.Rows.toList, ih]

theorem within_list {ss : List Schema} :
    Within known (referencesOfList ss) ↔ ∀ s ∈ ss, Within known s.references := by
  induction ss with
  | nil => simp [referencesOfList]
  | cons s ss ih => simp [referencesOfList, ih]

theorem within_option {s : Option Schema} :
    Within known (referencesOfOption s) ↔ ∀ c ∈ s, Within known c.references := by
  cases s <;> simp [referencesOfOption]

theorem within_rest {s : Option (Additional Schema)} :
    Within known (referencesOfRest s) ↔ ∀ c, s = some (.schema c) → Within known c.references := by
  rcases s with _ | _ | _ <;> simp [referencesOfRest]

theorem within_iff {s : Schema} : Within known s.references ↔ s.Parts known := by
  obtain ⟨reference, keywords, properties, items, negated, allOf, anyOf, oneOf, additional⟩ := s
  simp only [references, within_append, within_rows, within_option, within_list, within_rest]
  constructor
  · rintro ⟨⟨⟨⟨⟨⟨⟨hr, hp⟩, hi⟩, hn⟩, hall⟩, hany⟩, hone⟩, hrest⟩
    exact ⟨fun r h => hr r (by simpa using h), hp, hi, hn, hall, hany, hone, hrest⟩
  · rintro ⟨hr, hp, hi, hn, hall, hany, hone, hrest⟩
    exact ⟨⟨⟨⟨⟨⟨⟨fun r h => hr r (by simpa using h), hp⟩, hi⟩, hn⟩, hall⟩, hany⟩, hone⟩, hrest⟩

theorem within_blank : Within known ({} : Schema).references := within_nil

theorem within_ofType (t : SchemaType) : Within known (ofType t).references := within_nil

theorem within_keywords {s : Schema} (h : Within known s.references) (k : Keywords) :
    Within known { s with keywords := k }.references :=
  within_iff.mpr { within_iff.mp h with }

theorem within_require {s : Schema} (h : Within known s.references) (name : String) :
    Within known (s.require name).references := by
  unfold require
  split
  · exact h
  · exact within_keywords h _

theorem within_arrayOf {s : Schema} (h : Within known s.references) :
    Within known (arrayOf s).references :=
  within_iff.mpr { within_iff.mp (within_ofType .array) with
    items := fun _ hc => Option.some.inj hc ▸ h }

theorem within_properties {s : Schema} (h : Within known s.references) {properties : Ordered Schema}
    (hp : properties.All fun c => Within known c.references) :
    Within known { s with properties := properties }.references :=
  within_iff.mpr { within_iff.mp h with properties := hp }

theorem within_orList {upper lower : List Schema} (hu : ∀ c ∈ upper, Within known c.references)
    (hl : ∀ c ∈ lower, Within known c.references) :
    ∀ c ∈ orList upper lower, Within known c.references := by
  unfold orList
  split
  · exact hl
  · exact hu

theorem within_overlay {lower upper : Schema} (hl : Within known lower.references)
    (hu : Within known upper.references) : Within known (lower.overlay upper).references := by
  have hl := within_iff.mp hl
  have hu := within_iff.mp hu
  refine within_iff.mpr { hl with
    negated := ?negated, allOf := ?allOf, anyOf := ?anyOf, oneOf := ?oneOf }
  case negated =>
    intro c hc
    rcases Option.or_eq_some_iff.mp hc with h | ⟨-, h⟩
    · exact hu.negated c h
    · exact hl.negated c h
  case allOf => exact List.forall_mem_append.mpr ⟨hl.allOf, hu.allOf⟩
  case anyOf => exact within_orList hu.anyOf hl.anyOf
  case oneOf => exact within_orList hu.oneOf hl.oneOf

theorem within_declare {s upper : Schema} (hs : Within known s.references)
    (hu : Within known upper.references) : Within known (s.declare upper).references := by
  unfold declare
  split
  · exact hs
  · split
    · refine within_overlay (within_iff.mpr { within_iff.mp within_blank with allOf := ?_ }) hu
      simpa using hs
    · exact within_overlay hs hu

end Schema

namespace MediaType

theorem within_content {keys : List String} {rows : Ordered.Rows MediaType keys} :
    Within known (referencesOfContent rows) ↔
      ∀ row ∈ rows.toList, Within known row.2.references := by
  induction rows with
  | nil => simp [referencesOfContent, Ordered.Rows.toList]
  | cons m rows ih => simp [referencesOfContent, Ordered.Rows.toList, ih]

theorem within_headers {keys : List String} {rows : Ordered.Rows (HeaderOf MediaType) keys} :
    Within known (referencesOfHeaders rows) ↔
      ∀ row ∈ rows.toList, Within known row.2.references := by
  induction rows with
  | nil => simp [referencesOfHeaders, Ordered.Rows.toList]
  | cons h rows ih =>
    simp [referencesOfHeaders, Ordered.Rows.toList, HeaderOf.references, ih, and_assoc]

/-- Without parts only the schema counts. -/
theorem within_whole {m : MediaType} (hm : m.encoding.entries = [])
    (h : ∀ s ∈ m.schema, Within known s.references) : Within known m.references := by
  obtain ⟨schema, sample, examples, encoding, extensions⟩ := m
  obtain rfl : encoding = {} := Ordered.ext hm
  rw [references, within_append]
  exact ⟨Schema.within_option.mpr h, within_nil⟩

end MediaType

theorem Parameter.within_iff {p : Parameter} : Within known p.references ↔
    (∀ s ∈ p.schema, Within known s.references) ∧
      p.content.All fun m => Within known m.references := by
  rw [Parameter.references, within_append, Schema.within_option, MediaType.within_content]
  rfl

namespace Operation

theorem within_slot {o : Option Operation} :
    Within known (referencesOfSlot o) ↔ ∀ p ∈ o, Within known p.references := by
  cases o <;> simp [referencesOfSlot]

theorem within_items {keys : List String} {rows : Ordered.Rows PathItem keys} :
    Within known (referencesOfItems rows) ↔ ∀ row ∈ rows.toList,
      (∀ p ∈ row.2.parameters, Within known p.references) ∧
        ∀ m, ∀ o ∈ row.2.slots.at? m, Within known o.references := by
  have hall : ∀ P : HttpMethod → Prop, (∀ m, P m) ↔ (P .get ∧ P .put ∧ P .post ∧ P .delete ∧
      P .options ∧ P .head ∧ P .patch ∧ P .trace) := fun P =>
    ⟨fun h => ⟨h _, h _, h _, h _, h _, h _, h _, h _⟩, fun h m => by cases m <;> simp only [h]⟩
  induction rows with
  | nil => simp [referencesOfItems, Ordered.Rows.toList]
  | cons item rows ih =>
    obtain ⟨_, _, _, ⟨_, _, _, _, _, _, _, _⟩, _, parameters, _⟩ := item
    rw [Ordered.Rows.toList, List.forall_mem_cons, hall]
    simp only [referencesOfItems, within_append, within_flatMap, within_slot, ByMethod.at?,
      and_assoc, ih]

theorem within_callbacks {keys : List String} {rows : Ordered.Rows Callback keys} :
    Within known (referencesOfCallbacks rows) ↔
      ∀ row ∈ rows.toList, Within known row.2.references := by
  induction rows with
  | nil => simp [referencesOfCallbacks, Ordered.Rows.toList]
  | cons c rows ih => simp [referencesOfCallbacks, Ordered.Rows.toList, CallbackOf.references, ih]

structure Parts (known : String → Prop) (o : Operation) : Prop where
  parameters : ∀ p ∈ o.parameters, Within known p.references
  requestBody : ∀ b ∈ o.requestBody, Within known b.references
  responses : ∀ rs ∈ o.responses, Within known rs.references
  callbacks : o.callbacks.All fun c => Within known c.references

theorem within_iff {o : Operation} : Within known o.references ↔ o.Parts known := by
  obtain ⟨_, _, _, _, _, parameters, requestBody, responses, callbacks, _, _, _, _⟩ := o
  simp only [references, within_append, within_flatMap, within_callbacks, Option.mem_toList]
  constructor
  · rintro ⟨⟨⟨hp, hb⟩, hr⟩, hc⟩
    exact ⟨hp, hb, hr, hc⟩
  · rintro ⟨hp, hb, hr, hc⟩
    exact ⟨⟨⟨hp, hb⟩, hr⟩, hc⟩

end Operation

theorem Responses.within_iff {rs : Responses} :
    Within known rs.references ↔ rs.entries.All fun r => Within known r.references := by
  rw [Responses.references, within_flatMap]
  exact List.forall_mem_map

end

def PointsTo (names : List String) (r : String) : Prop :=
  ∃ name ∈ names, r = ComponentKind.schemas.pointer name

end ApiDoc
