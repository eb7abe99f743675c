import ApiDoc.Form.Operation
import ApiDoc.Proofs.Document.Nodes
import ApiDoc.Proofs.Document.Subschemas

/-!
# One level of a recursive form

Schemas, media types and operations are written with as many levels as they are tall.
More levels write the same, so that each of them is one level of its record around the
JSON forms of those below it.
-/

set_option autoImplicit false

namespace ApiDoc

namespace Codec

variable {α : Type} {a b : Codec α}

theorem encode_list_congr {xs : List α} (h : ∀ x ∈ xs, a.encode x = b.encode x) :
    a.list.encode xs = b.list.encode xs :=
  congrArg Json.array (List.map_congr_left h)

theorem encode_table_congr {t : Ordered α} (h : t.All fun x => a.encode x = b.encode x) :
    a.table.encode t = b.table.encode t :=
  congrArg Json.object (List.map_congr_left fun row hrow => by rw [h row hrow])

end Codec

namespace Record

variable {ρ : Type}

/-- Only what the fields write counts. -/
theorem encode_congr {R S : Record ρ} {r : ρ}
    (hfields : R.fields.map (fun f => (f.name, f.write r)) =
      S.fields.map fun f => (f.name, f.write r))
    (hrest : R.rest.write r = S.rest.write r) : R.encode r = S.encode r := by
  have hrows : ∀ T : Record ρ, T.encode r = .object
      ((T.fields.map fun f => (f.name, f.write r)).filterMap
        (fun w => w.2.map fun j => (w.1, j)) ++ T.rest.write r) := by
    intro T
    rw [List.filterMap_map]
    rfl
  rw [hrows, hrows, hfields, hrest]

end Record

namespace Schema

theorem encode_form_congr {a b : Codec Schema} {s : Schema}
    (h : ∀ c ∈ s.children, a.encode c = b.encode c) : (form a).encode s = (form b).encode s := by
  have h := forall_children.mp h
  have hrest : s.additional.map (Additional.codec a).encode =
      s.additional.map (Additional.codec b).encode := by
    rcases hs : s.additional with _ | _ | c
    · rfl
    · rfl
    · exact congrArg some (h.additional c hs)
  apply Record.encode_congr
  · simp [form, subschemas, Codec.encode_table_congr h.properties, Option.map_congr h.items,
      Option.map_congr h.negated, Codec.encode_list_congr h.allOf,
      Codec.encode_list_congr h.anyOf, Codec.encode_list_congr h.oneOf, hrest]
  · rfl

theorem encode_within {n k : Nat} {s : Schema} (hn : s.height ≤ n) (hk : s.height ≤ k) :
    (codecWithin n).encode s = (codecWithin k).encode s := by
  induction n generalizing s k with
  | zero => exact absurd s.height_pos (by omega)
  | succ n ih =>
    obtain ⟨below, hs, hc⟩ := s.height_eq_succ
    obtain ⟨k, rfl⟩ : ∃ j, k = j + 1 := ⟨k - 1, by omega⟩
    apply encode_form_congr
    intro c hmem
    have := hc c hmem
    exact ih (by omega) (by omega)

/-- One level of a schema around the JSON forms of its subschemas. -/
theorem toJson_eq (s : Schema) : s.toJson = (form codec).encode s := by
  obtain ⟨below, hs, hc⟩ := s.height_eq_succ
  rw [toJson, hs]
  apply encode_form_congr
  intro c hmem
  exact encode_within (hc c hmem) le_rfl

end Schema

namespace MediaType

theorem encode_form_congr {a b : Codec MediaType} {m : MediaType}
    (h : m.encoding.All fun e => e.headers.All fun header =>
      header.content.All fun c => a.encode c = b.encode c) :
    (form a).encode m = (form b).encode m := by
  have hheader : ∀ header : Header, (header.content.All fun c => a.encode c = b.encode c) →
      (HeaderOf.form a).encode header = (HeaderOf.form b).encode header := by
    intro header hc
    apply Record.encode_congr
    · simp [HeaderOf.form, Codec.encode_table_congr hc]
    · rfl
  have hencoding : m.encoding.All fun e => (EncodingOf.form a).codec.encode e =
      (EncodingOf.form b).codec.encode e := by
    intro row hrow
    have hheaders : row.2.headers.All fun header => (HeaderOf.form a).codec.encode header =
        (HeaderOf.form b).codec.encode header :=
      fun r hr => hheader r.2 (h row hrow r hr)
    apply Record.encode_congr
    · simp [EncodingOf.form, Codec.encode_table_congr hheaders]
    · rfl
  apply Record.encode_congr
  · simp [form, Codec.encode_table_congr hencoding]
  · rfl

theorem height_le_heightContent {keys : List String} {rows : Ordered.Rows MediaType keys}
    {row : String × MediaType} (h : row ∈ rows.toList) : row.2.height ≤ heightContent rows := by
  induction rows with
  | nil => cases h
  | cons r rows ih =>
    rw [heightContent]
    rcases List.mem_cons.mp h with rfl | h
    · exact Nat.le_max_left _ _
    · exact (ih h).trans (Nat.le_max_right _ _)

theorem height_le_heightHeaders {keys : List String} {rows : Ordered.Rows Header keys}
    {row : String × Header} (h : row ∈ rows.toList) :
    heightContent row.2.content.rows ≤ heightHeaders rows := by
  induction rows with
  | nil => cases h
  | cons r rows ih =>
    rw [heightHeaders]
    rcases List.mem_cons.mp h with rfl | h
    · exact Nat.le_max_left _ _
    · exact (ih h).trans (Nat.le_max_right _ _)

theorem height_le_heightEncodings {keys : List String} {rows : Ordered.Rows Encoding keys}
    {row : String × Encoding} (h : row ∈ rows.toList) :
    heightHeaders row.2.headers.rows ≤ heightEncodings rows := by
  induction rows with
  | nil => cases h
  | cons r rows ih =>
    rw [heightEncodings]
    rcases List.mem_cons.mp h with rfl | h
    · exact Nat.le_max_left _ _
    · exact (ih h).trans (Nat.le_max_right _ _)

/-- A media type is one level taller than what bounds those in the headers of its parts. -/
theorem height_eq_succ (m : MediaType) :
    ∃ below, m.height = below + 1 ∧ m.encoding.All fun e => e.headers.All fun header =>
      header.content.All fun c => c.height ≤ below := by
  obtain ⟨schema, sample, examples, encoding, extensions⟩ := m
  refine ⟨_, rfl, fun e he header hh c hc => ?_⟩
  exact (height_le_heightContent hc).trans
    ((height_le_heightHeaders hh).trans (height_le_heightEncodings he))

theorem encode_within {n k : Nat} {m : MediaType} (hn : m.height ≤ n) (hk : m.height ≤ k) :
    (codecWithin n).encode m = (codecWithin k).encode m := by
  induction n generalizing m k with
  | zero =>
    obtain ⟨below, hm, -⟩ := m.height_eq_succ
    omega
  | succ n ih =>
    obtain ⟨below, hm, hc⟩ := m.height_eq_succ
    obtain ⟨k, rfl⟩ : ∃ j, k = j + 1 := ⟨k - 1, by omega⟩
    apply encode_form_congr
    intro e he header hh c hmem
    have := hc e he header hh c hmem
    exact ih (by omega) (by omega)

/-- One level of a media type around the JSON forms of those in the headers of its parts. -/
theorem toJson_eq (m : MediaType) : m.toJson = (form codec).encode m := by
  obtain ⟨below, hm, hc⟩ := m.height_eq_succ
  rw [toJson, hm]
  apply encode_form_congr
  intro e he header hh c hmem
  exact encode_within (hc e he header hh c hmem) le_rfl

end MediaType

namespace Operation

theorem encode_form_congr {a b : Codec Operation} {o : Operation}
    (h : o.callbacks.All fun c => c.expressions.All fun i =>
      ∀ m q, i.slots.at? m = some q → a.encode q = b.encode q) :
    (form a).encode o = (form b).encode o := by
  have hitem : ∀ i : PathItem, (∀ m q, i.slots.at? m = some q → a.encode q = b.encode q) →
      (PathItemOf.form a).encode i = (PathItemOf.form b).encode i := by
    intro i hi
    have hslot : ∀ m, (i.slots.at? m).map a.encode = (i.slots.at? m).map b.encode :=
      fun m => Option.map_congr (hi m)
    apply Record.encode_congr
    · simp [PathItemOf.form, PathItemOf.slot, hslot]
    · rfl
  have hcallbacks : o.callbacks.All fun c => (CallbackOf.form a).codec.encode c =
      (CallbackOf.form b).codec.encode c := by
    intro row hrow
    apply Record.encode_congr
    · rfl
    · exact List.map_congr_left fun r hr => by
        rw [show (PathItemOf.form a).codec.encode r.2 = (PathItemOf.form b).codec.encode r.2 from
          hitem r.2 (h row hrow r hr)]
  apply Record.encode_congr
  · simp [form, Codec.encode_table_congr hcallbacks]
  · rfl

/-- An operation is one level taller than what bounds those in its callbacks. -/
theorem height_eq_succ (o : Operation) :
    ∃ below, o.height = below + 1 ∧ o.callbacks.All fun c => c.expressions.All fun i =>
      ∀ m q, i.slots.at? m = some q → q.height ≤ below := by
  obtain ⟨below, ho⟩ := Nat.exists_eq_add_one.mpr o.height_pos
  refine ⟨below, ho, fun c hc i hi m q hq => ?_⟩
  have hcallback : c.2.height < o.height := callback_height_lt hc
  rw [ho] at hcallback
  exact (height_le_item hq).trans ((item_height_le hi).trans (Nat.le_of_lt_succ hcallback))

theorem encode_within {n k : Nat} {o : Operation} (hn : o.height ≤ n) (hk : o.height ≤ k) :
    (codecWithin n).encode o = (codecWithin k).encode o := by
  induction n generalizing o k with
  | zero => exact absurd o.height_pos (by omega)
  | succ n ih =>
    obtain ⟨below, ho, hq⟩ := o.height_eq_succ
    obtain ⟨k, rfl⟩ : ∃ j, k = j + 1 := ⟨k - 1, by omega⟩
    apply encode_form_congr
    intro c hc i hi m q hslot
    have := hq c hc i hi m q hslot
    exact ih (by omega) (by omega)

/-- One level of an operation around the JSON forms of those in its callbacks. -/
theorem toJson_eq (o : Operation) : o.toJson = (form codec).encode o := by
  obtain ⟨below, ho, hq⟩ := o.height_eq_succ
  rw [toJson, ho]
  apply encode_form_congr
  intro c hc i hi m q hslot
  exact encode_within (hq c hc i hi m q hslot) le_rfl

end Operation

end ApiDoc
