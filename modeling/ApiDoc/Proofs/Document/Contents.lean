import Mathlib.Data.Prod.Lex
import ApiDoc.Proofs.Document.Nodes

/-!
# Everything that stands in a document

A walk passes by the headers of encodings and the examples of headers. They are
nodes all the same, and what is said of every node of a document is said of them too.
-/

set_option autoImplicit false

namespace ApiDoc

namespace Row

variable {α : Type} {field : String} {f : α → Node} {row : Row}

theorem mem_ofList {xs : List α} : row ∈ ofList field f xs ↔ ∃ x ∈ xs, ([field], f x) = row :=
  List.mem_map

theorem mem_ofSlot {x : Option α} :
    row ∈ ofSlot field f x ↔ ∃ a, x = some a ∧ ([field], f a) = row := by
  simp [ofSlot, mem_ofList]

theorem mem_ofTable {t : Ordered α} :
    row ∈ ofTable field f t ↔ ∃ e ∈ t.entries, ([field, e.1], f e.2) = row :=
  List.mem_map

theorem mem_under {place : Place} {rows : List Row} :
    row ∈ under place rows ↔ ∃ r ∈ rows, (place ++ r.1, r.2) = row :=
  List.mem_map

theorem mem_ofContent {c : Content} : row ∈ ofContent c ↔
    ∃ e ∈ c.entries, row ∈ under ["content", e.1] (ofMedia e.2) := List.mem_flatMap

def ofEncodings (m : MediaType) : List Row :=
  m.encoding.entries.flatMap fun row =>
    under ["encoding", row.1] (ofTable "headers" .header row.2.headers)

def ofParts (c : Content) : List Row :=
  c.entries.flatMap fun row => under ["content", row.1] (ofEncodings row.2)

end Row

namespace Node

open Row

/-- The nodes right below a node that a walk passes by. -/
def aside : Node → List Row
  | .response r => ofParts r.content
  | .parameter q => ofParts q.content
  | .requestBody b => ofParts b.content
  | .header h => ofTable "examples" .sample h.examples ++ ofParts h.content
  | _ => []

inductive Includes : Node → Node → Prop
  | self (n : Node) : Includes n n
  | child {n m : Node} {row : Row} (hr : row ∈ n.rows ++ n.aside) (hm : Includes row.2 m) :
    Includes n m

theorem Includes.trans {a b c : Node} (hab : a.Includes b) (hbc : b.Includes c) :
    a.Includes c := by
  induction hab with
  | self => exact hbc
  | child hr _ ih => exact .child hr (ih hbc)

theorem Holds.includes {n m : Node} (h : n.Holds m) : n.Includes m := by
  induction h with
  | self n => exact .self n
  | child hr _ ih => exact .child (List.mem_append_left _ hr) ih

theorem Includes.left {n m : Node} (h : n.Includes m) :
    n.Holds m ∨ ∃ a, n.Holds a ∧ ∃ row ∈ a.aside, row.2.Includes m := by
  induction h with
  | self n => exact Or.inl (.self n)
  | child hr hm ih =>
    rcases List.mem_append.mp hr with hr | hr
    · rcases ih with hh | ⟨a, ha, hrow⟩
      · exact Or.inl (.child hr hh)
      · exact Or.inr ⟨a, .child hr ha, hrow⟩
    · exact Or.inr ⟨_, .self _, _, hr, hm⟩

end Node

namespace OpenApi

def Includes (d : OpenApi) (n : Node) : Prop := ∃ row ∈ d.rows, row.2.Includes n

def Refers (d : OpenApi) (pointer : String) : Prop :=
  ∃ s, d.Includes (.schema s) ∧ s.reference = some pointer

end OpenApi

/-! ### Induction over what a walk visits -/

namespace Node

open Row

/-- What is visited below a node has a smaller rank. Operations, path items and
callbacks hold each other and count by height. -/
def rank : Node → Nat ×ₗ Nat
  | .schema s => toLex (1, s.height)
  | .link _ => toLex (1, 0)
  | .header _ | .parameter _ | .requestBody _ => toLex (2, 0)
  | .response _ => toLex (3, 0)
  | .operation o => toLex (4, 3 * o.height)
  | .pathItem _ i => toLex (4, 3 * i.height + 1)
  | .callback c => toLex (4, 3 * c.height + 2)
  | .sample _ | .securityScheme _ | .server _ | .tag _ | .requirement _ => toLex (0, 0)

/-- What stands below a schema is a schema, and one of its children. -/
theorem mem_rows_schema {s : Schema} {row : Row} (h : row ∈ (Node.schema s).rows) :
    ∃ c ∈ s.children, row.2 = .schema c := by
  simp only [rows, List.mem_append, mem_ofTable, mem_ofSlot, mem_ofList, or_assoc] at h
  rcases h with ⟨e, he, rfl⟩ | ⟨c, hc, rfl⟩ | ⟨c, hc, rfl⟩ | ⟨c, hc, rfl⟩ | ⟨c, hc, rfl⟩ |
    ⟨c, hc, rfl⟩ | ⟨c, hc, rfl⟩
  · have hc : e.2 ∈ s.properties.values := List.mem_map_of_mem he
    exact ⟨e.2, by simp [Schema.children, hc], rfl⟩
  all_goals exact ⟨c, by simp [Schema.children, hc], rfl⟩

theorem rank_ofContent {c : Content} {row : Row} (h : row ∈ ofContent c) :
    row.2.rank < toLex (2, 0) := by
  simp only [mem_ofContent, mem_under, ofMedia, List.mem_append, mem_ofSlot, mem_ofTable] at h
  obtain ⟨e, -, r, ⟨s, -, rfl⟩ | ⟨e, -, rfl⟩, rfl⟩ := h <;> simp [rank, Prod.Lex.toLex_lt_toLex]

theorem rank_lt {n : Node} {row : Row} (h : row ∈ n.rows) : row.2.rank < n.rank := by
  cases n with
  | schema s =>
    obtain ⟨c, hc, hrow⟩ := mem_rows_schema h
    simpa [hrow, rank, Prod.Lex.toLex_lt_toLex] using Schema.height_lt hc
  | response r =>
    simp only [rows, List.mem_append, mem_ofTable] at h
    rcases h with (⟨e, -, rfl⟩ | h) | ⟨e, -, rfl⟩
    · simp [rank, Prod.Lex.toLex_lt_toLex]
    · exact (rank_ofContent h).trans (by simp [rank, Prod.Lex.toLex_lt_toLex])
    · simp [rank, Prod.Lex.toLex_lt_toLex]
  | parameter q =>
    simp only [rows, List.mem_append, mem_ofTable, mem_ofSlot] at h
    rcases h with (⟨s, -, rfl⟩ | ⟨e, -, rfl⟩) | h
    · simp [rank, Prod.Lex.toLex_lt_toLex]
    · simp [rank, Prod.Lex.toLex_lt_toLex]
    · exact rank_ofContent h
  | requestBody b => exact rank_ofContent h
  | header hd =>
    simp only [rows, List.mem_append, mem_ofSlot] at h
    rcases h with ⟨s, -, rfl⟩ | h
    · simp [rank, Prod.Lex.toLex_lt_toLex]
    · exact rank_ofContent h
  | link l =>
    simp only [rows, mem_ofSlot] at h
    obtain ⟨s, -, rfl⟩ := h
    simp [rank, Prod.Lex.toLex_lt_toLex]
  | callback c =>
    obtain ⟨e, he, rfl⟩ := List.mem_map.mp h
    have := Operation.item_height_le he
    simp [rank, Prod.Lex.toLex_lt_toLex]
    omega
  | pathItem path i =>
    simp only [rows, List.mem_append, List.mem_map, mem_ofList] at h
    rcases h with (⟨⟨m, o⟩, he, rfl⟩ | ⟨q, -, rfl⟩) | ⟨s, -, rfl⟩
    · have := Operation.height_le_item (ByMethod.mem_toList.mp he)
      simp [rank, Prod.Lex.toLex_lt_toLex]
      omega
    · simp [rank, Prod.Lex.toLex_lt_toLex]
    · simp [rank, Prod.Lex.toLex_lt_toLex]
  | operation o =>
    simp only [rows, ofResponses, List.mem_append, List.mem_flatMap, mem_ofTable, mem_ofSlot,
      mem_ofList, or_assoc] at h
    rcases h with ⟨q, -, rfl⟩ | ⟨b, -, rfl⟩ | ⟨r, -, e, -, rfl⟩ | ⟨e, he, rfl⟩ | ⟨s, -, rfl⟩ |
      ⟨sets, -, q, -, rfl⟩
    case operation.inr.inr.inr.inl =>
      have := Operation.callback_height_lt he
      simp [rank, Prod.Lex.toLex_lt_toLex]
      omega
    all_goals simp [rank, Prod.Lex.toLex_lt_toLex]
  | sample _ | securityScheme _ | server _ | tag _ | requirement _ => cases h

theorem rank_ofParts {c : Content} {row : Row} (h : row ∈ ofParts c) :
    row.2.rank = toLex (2, 0) := by
  simp only [ofParts, ofEncodings, List.mem_flatMap, mem_under, mem_ofTable] at h
  obtain ⟨e, -, r, ⟨part, -, q, ⟨header, -, rfl⟩, rfl⟩, rfl⟩ := h
  rfl

/-- Only headers and samples are passed by, and nothing smaller than a header has any. -/
theorem rank_aside {n : Node} {row : Row} (h : row ∈ n.aside) :
    row.2.rank ≤ toLex (2, 0) ∧ toLex (2, 0) ≤ n.rank := by
  cases n with
  | response r => exact ⟨(rank_ofParts h).le, by simp [rank, Prod.Lex.toLex_le_toLex]⟩
  | parameter q => exact ⟨(rank_ofParts h).le, le_rfl⟩
  | requestBody b => exact ⟨(rank_ofParts h).le, le_rfl⟩
  | header hd =>
    rcases List.mem_append.mp h with h | h
    · obtain ⟨e, -, rfl⟩ := mem_ofTable.mp h
      exact ⟨by simp [rank, Prod.Lex.toLex_le_toLex], le_rfl⟩
    · exact ⟨(rank_ofParts h).le, le_rfl⟩
  | _ => cases h

theorem Includes.rank_le {n m : Node} (h : n.Includes m) : m.rank ≤ n.rank := by
  induction h with
  | self => exact le_rfl
  | child hr _ ih =>
    rcases List.mem_append.mp hr with hr | hr
    · exact ih.trans (rank_lt hr).le
    · exact ih.trans ((rank_aside hr).1.trans (rank_aside hr).2)

/-- A walk passes by no operation. -/
theorem Includes.holds_operation {n : Node} {o : Operation} (h : n.Includes (.operation o)) :
    n.Holds (.operation o) := by
  rcases h.left with h | ⟨a, -, row, hrow, h⟩
  · exact h
  · have hle : (Node.operation o).rank ≤ toLex (2, 0) := h.rank_le.trans (rank_aside hrow).1
    simp [rank, Prod.Lex.toLex_le_toLex] at hle

/-- What passes from the rows of a node to the node holds of every node. -/
theorem induct {P : Node → Prop} (h : ∀ n : Node, (∀ row ∈ n.rows, P row.2) → P n) (n : Node) :
    P n := by
  apply WellFounded.induction (InvImage.wf rank wellFounded_lt) n
  intro n ih
  exact h n fun row hrow => ih row.2 (rank_lt hrow)

end Node

end ApiDoc
