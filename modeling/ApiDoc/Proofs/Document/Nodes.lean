import Mathlib.Data.List.Basic
import Mathlib.Order.MinMax
import ApiDoc.Document.Basic

/-!
# Documents as trees of nodes

A node is what a policy is asked about. The rows of a node are the nodes right
below it that a walk visits, in the order of the walk, each with the place where
it stands. What else a node holds is its shell. The headers of encodings and the
examples of headers are not visited and belong to the shells.
-/

set_option autoImplicit false

namespace ApiDoc

inductive Node where
  | schema (s : Schema)
  | response (r : Response)
  | parameter (q : Parameter)
  | sample (e : Example)
  | requestBody (b : RequestBody)
  | header (h : Header)
  | securityScheme (s : SecurityScheme)
  | link (l : Link)
  | callback (c : Callback)
  | pathItem (path : String) (i : PathItem)
  | operation (o : Operation)
  | server (s : Server)
  | tag (t : Tag)
  | requirement (r : SecurityRequirement)

/-- Names of fields and keys of tables on the way from a node to one right below it.
An element of a list has no key, its place is that of the list. -/
abbrev Place := List String

abbrev Row := Place × Node

namespace Row

variable {α : Type}

def ofList (field : String) (f : α → Node) (xs : List α) : List Row :=
  xs.map fun x => ([field], f x)

def ofSlot (field : String) (f : α → Node) (x : Option α) : List Row :=
  ofList field f x.toList

def ofTable (field : String) (f : α → Node) (t : Ordered α) : List Row :=
  t.entries.map fun row => ([field, row.1], f row.2)

def under (place : Place) (rows : List Row) : List Row :=
  rows.map fun row => (place ++ row.1, row.2)

def ofMedia (m : MediaType) : List Row :=
  ofSlot "schema" .schema m.schema ++ ofTable "examples" .sample m.examples

def ofContent (c : Content) : List Row :=
  c.entries.flatMap fun row => under ["content", row.1] (ofMedia row.2)

def ofResponses (r : Responses) : List Row := ofTable "responses" .response r.entries

def ofComponents (c : Components) : List Row :=
  ofTable "schemas" .schema c.schemas ++ ofTable "responses" .response c.responses
    ++ ofTable "parameters" .parameter c.parameters ++ ofTable "examples" .sample c.examples
    ++ ofTable "requestBodies" .requestBody c.requestBodies ++ ofTable "headers" .header c.headers
    ++ ofTable "securitySchemes" .securityScheme c.securitySchemes
    ++ ofTable "links" .link c.links ++ ofTable "callbacks" .callback c.callbacks

end Row

def Content.shell (c : Content) : Content :=
  c.mapValues fun m => { m with schema := none, examples := {} }

namespace Node

open Row

def rows : Node → List Row
  | .schema s =>
    ofTable "properties" .schema s.properties ++ ofSlot "items" .schema s.items
      ++ ofSlot "not" .schema s.negated ++ ofList "allOf" .schema s.allOf
      ++ ofList "anyOf" .schema s.anyOf ++ ofList "oneOf" .schema s.oneOf
      ++ ofSlot "additionalProperties" .schema (Schema.additionalSchema? s.additional)
  | .response r =>
    ofTable "headers" .header r.headers ++ ofContent r.content ++ ofTable "links" .link r.links
  | .parameter q =>
    ofSlot "schema" .schema q.schema ++ ofTable "examples" .sample q.examples
      ++ ofContent q.content
  | .requestBody b => ofContent b.content
  | .header h => ofSlot "schema" .schema h.schema ++ ofContent h.content
  | .link l => ofSlot "server" .server l.server
  | .callback c => c.expressions.entries.map fun row => ([row.1], .pathItem row.1 row.2)
  | .pathItem _ i =>
    (i.slots.toList.map fun row => ([row.1.name], .operation row.2))
      ++ ofList "parameters" .parameter i.parameters ++ ofList "servers" .server i.servers
  | .operation o =>
    ofList "parameters" .parameter o.parameters ++ ofSlot "requestBody" .requestBody o.requestBody
      ++ o.responses.toList.flatMap ofResponses ++ ofTable "callbacks" .callback o.callbacks
      ++ ofList "servers" .server o.servers
      ++ o.security.toList.flatMap (ofList "security" .requirement)
  | .sample _ | .securityScheme _ | .server _ | .tag _ | .requirement _ => []

/-- What a node holds besides the nodes below it. Media types, the designation of a
response and the presence of lists are part of it. -/
def shell : Node → Node
  | .schema s => .schema { s with
      properties := {}, items := none, negated := none, allOf := [], anyOf := [], oneOf := []
      additional := s.additional.bind fun a =>
        match a with
        | .allowed value => some (.allowed value)
        | .schema _ => none }
  | .response r => .response { r with headers := {}, content := r.content.shell, links := {} }
  | .parameter q => .parameter { q with schema := none, examples := {}, content := q.content.shell }
  | .requestBody b => .requestBody { b with content := b.content.shell }
  | .header h => .header { h with schema := none, content := Content.shell h.content }
  | .link l => .link { l with server := none }
  | .callback c => .callback { c with expressions := {} }
  | .pathItem path i => .pathItem path { i with slots := {}, parameters := [], servers := [] }
  | .operation o => .operation { o with
      parameters := [], requestBody := none
      responses := o.responses.map fun r => { r with entries := {} }
      callbacks := {}, servers := [], security := o.security.map fun _ => [] }
  | n => n

def schema? : Node → Option Schema
  | .schema s => some s
  | _ => none

/-- Levels below schemas and operations, which are the nodes that hold nodes of
their own kind. -/
def height : Node → Nat
  | .schema s => s.height
  | .callback c => c.height
  | .pathItem _ i => i.height
  | .operation o => o.height
  | _ => 0

inductive Holds : Node → Node → Prop
  | self (n : Node) : Holds n n
  | child {n m : Node} {row : Row} (hr : row ∈ n.rows) (hm : Holds row.2 m) : Holds n m

end Node

namespace OpenApi

open Row

def rows (d : OpenApi) : List Row :=
  d.components.toList.flatMap (fun c => under ["components"] (ofComponents c))
    ++ (d.paths.entries.map fun row => (["paths", row.1], .pathItem row.1 row.2))
    ++ ofList "servers" .server d.servers ++ ofList "tags" .tag d.tags
    ++ ofList "security" .requirement d.security

def Holds (d : OpenApi) (n : Node) : Prop := ∃ row ∈ d.rows, row.2.Holds n

def shell (d : OpenApi) : OpenApi :=
  { d with
    components := d.components.map fun c => ({ extensions := c.extensions } : Components)
    paths := {}, servers := [], tags := [], security := [] }

end OpenApi

/-! ### Ways down -/

/-- The ways down from rows, of at most `depth` nodes, each before those that go on
from its end. -/
def trails : Nat → List Row → List (List Row)
  | 0, _ => []
  | depth + 1, rows => rows.flatMap fun row =>
    [row] :: (trails depth row.2.rows).map fun trail => row :: trail

/-- Where rows are dropped or changed one by one, the ways down are those that lead through
no dropped row, with every row on them changed. -/
theorem trails_filter_map {keep : Row → Bool} {f : Row → Row}
    (h : ∀ row, keep row = true → (f row).2.rows = (row.2.rows.filter keep).map f) (depth : Nat)
    (rows : List Row) : trails depth ((rows.filter keep).map f) =
      ((trails depth rows).filter (List.all · keep)).map (List.map f) := by
  induction depth generalizing rows with
  | zero => rfl
  | succ depth below =>
    induction rows with
    | nil => rfl
    | cons row rows ih =>
      simp only [trails, List.flatMap_cons, List.filter_append, List.map_append, List.filter_cons,
        List.filter_map, List.all_cons, Function.comp_def] at ih ⊢
      cases hk : keep row with
      | false =>
        simp only [Bool.false_and, Bool.false_eq_true, ↓reduceIte, List.filter_false, List.map_nil,
          List.nil_append]
        exact ih
      | true =>
        simp only [↓reduceIte, List.map_cons, List.flatMap_cons, h row hk, below, ih, Bool.true_and,
          List.all_nil, List.map_nil, List.map_map, Function.comp_def]

/-- What stands somewhere below rows stands on a way down from them. -/
theorem exists_trail_iff {rows : List Row} {n : Node} :
    (∃ depth, ∃ trail ∈ trails depth rows, ∃ row ∈ trail, row.2 = n) ↔
      ∃ row ∈ rows, row.2.Holds n := by
  constructor
  · rintro ⟨depth, trail, htrail, row, hrow, rfl⟩
    induction depth generalizing rows trail with
    | zero => cases htrail
    | succ depth ih =>
      obtain ⟨top, htop, htrail⟩ := List.mem_flatMap.mp htrail
      refine ⟨top, htop, ?_⟩
      rcases List.mem_cons.mp htrail with rfl | htrail
      · rw [List.mem_singleton.mp hrow]
        exact .self _
      · obtain ⟨rest, hrest, rfl⟩ := List.mem_map.mp htrail
        rcases List.mem_cons.mp hrow with rfl | hrow
        · exact .self _
        · obtain ⟨next, hnext, hholds⟩ := ih rest hrest hrow
          exact .child hnext hholds
  · rintro ⟨top, htop, hholds⟩
    generalize ht : top.2 = t at hholds
    induction hholds generalizing top rows with
    | self t => exact ⟨1, [top], List.mem_flatMap.mpr ⟨top, htop, .head _⟩, top, .head _, ht⟩
    | child hr _ ih =>
      obtain ⟨depth, trail, htrail, row, hrow, hn⟩ := ih _ hr rfl
      have hdown := List.mem_map_of_mem (f := fun trail => top :: trail) (ht ▸ htrail)
      exact ⟨depth + 1, top :: trail,
        List.mem_flatMap.mpr ⟨top, htop, List.mem_cons_of_mem _ hdown⟩, row, .tail _ hrow, hn⟩

/-! ### Heights -/

namespace Schema

theorem height_le_heightList {ss : List Schema} {c : Schema} (h : c ∈ ss) :
    c.height ≤ heightList ss := by
  induction ss with
  | nil => cases h
  | cons s ss ih =>
    rw [heightList]
    rcases List.mem_cons.mp h with rfl | h
    · omega
    · have := ih h
      omega

theorem heightRows_le {keys : List String} {rows : Ordered.Rows Schema keys} {n : Nat} :
    heightRows rows ≤ n ↔ ∀ row ∈ rows.toList, row.2.height ≤ n := by
  induction rows with
  | nil => simp [heightRows, Ordered.Rows.toList]
  | cons s rows ih =>
    rw [heightRows, Nat.max_le, ih, Ordered.Rows.toList, List.forall_mem_cons]

/-- A schema is one level taller than what bounds all its subschemas. -/
theorem height_eq_succ (s : Schema) :
    ∃ below, s.height = below + 1 ∧ ∀ c ∈ s.children, c.height ≤ below := by
  obtain ⟨reference, keywords, properties, items, negated, allOf, anyOf, oneOf, additional⟩ := s
  refine ⟨_, height.eq_def _, fun c h => ?_⟩
  simp only [children, List.mem_append, Option.mem_toList, or_assoc] at h
  rcases h with h | h | h | h | h | h | h
  · obtain ⟨row, hrow, rfl⟩ := List.mem_map.mp h
    simp only [le_max_iff, heightRows_le.mp le_rfl row hrow, true_or]
  · rw [h]
    simp only [le_max_iff, le_refl, true_or, or_true]
  · rw [h]
    simp only [le_max_iff, le_refl, true_or, or_true]
  · simp only [le_max_iff, height_le_heightList h, true_or, or_true]
  · simp only [le_max_iff, height_le_heightList h, true_or, or_true]
  · simp only [le_max_iff, height_le_heightList h, true_or, or_true]
  · rcases additional with _ | _ | u <;> cases h
    simp only [le_max_iff, le_refl, or_true]

theorem height_pos (s : Schema) : 0 < s.height := by
  obtain ⟨below, h, -⟩ := s.height_eq_succ
  omega

theorem height_lt {s c : Schema} (h : c ∈ s.children) : c.height < s.height := by
  obtain ⟨below, hs, hc⟩ := s.height_eq_succ
  have := hc c h
  omega

end Schema

namespace Operation

theorem height_pos (o : Operation) : 0 < o.height := by
  cases o
  exact Nat.succ_pos _

theorem height_le_heightItems {keys : List String} {rows : Ordered.Rows PathItem keys}
    {row : String × PathItem} (h : row ∈ rows.toList) : row.2.height ≤ heightItems rows := by
  induction rows with
  | nil => cases h
  | cons item rows ih =>
    rw [heightItems]
    rcases List.mem_cons.mp h with rfl | h
    · exact Nat.le_max_left _ _
    · exact (ih h).trans (Nat.le_max_right _ _)

theorem height_le_heightCallbacks {keys : List String} {rows : Ordered.Rows Callback keys}
    {row : String × Callback} (h : row ∈ rows.toList) :
    row.2.height ≤ heightCallbacks rows := by
  induction rows with
  | nil => cases h
  | cons callback rows ih =>
    rw [heightCallbacks]
    rcases List.mem_cons.mp h with rfl | h
    · exact Nat.le_max_left _ _
    · exact (ih h).trans (Nat.le_max_right _ _)

theorem height_le_item {i : PathItem} {m : HttpMethod} {o : Operation}
    (h : i.slots.at? m = some o) : o.height ≤ i.height := by
  obtain ⟨reference, summary, description, slots, servers, parameters, extensions⟩ := i
  cases m
  all_goals
    have hslot := congrArg heightSlot h
    simp only [ByMethod.at?, heightSlot] at hslot
    simp only [PathItemOf.height, heightItem, hslot, le_max_iff, le_refl, true_or, or_true]

theorem item_height_le {c : Callback} {row : String × PathItem}
    (h : row ∈ c.expressions.entries) : row.2.height ≤ c.height := by
  cases c
  exact height_le_heightItems h

theorem callback_height_lt {o : Operation} {row : String × Callback}
    (h : row ∈ o.callbacks.entries) : row.2.height < o.height := by
  obtain ⟨_, _, _, _, _, _, _, _, callbacks, _, _, _, _⟩ := o
  exact Nat.lt_succ_of_le (height_le_heightCallbacks h)

end Operation

end ApiDoc
