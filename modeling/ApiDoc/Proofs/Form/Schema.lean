import ApiDoc.Proofs.Document.Levels
import ApiDoc.Proofs.Record

/-!
# Schemas that can be stored

What a schema must be like so that it is read as it was written: no extension under the
name of a field, no null where it would stand for nothing, whole numbers of 64 bits, and
every key of a free-form value once. Reading gives no other schemas. The number in a property
bounds the levels of what stands in the object.
-/

set_option autoImplicit false

namespace ApiDoc

open Codec (stored_text stored_flag stored_natural stored_number returns_value)

variable {limit least : Nat}

theorem SchemaType.stored : codec.Stored limit least Always id :=
  Codec.stored_word fun t => by cases t <;> rfl

namespace ExternalDocs

structure Storable (n : Nat) (e : ExternalDocs) : Prop where
  extensions : Rest.Beside form.names Json.Clean n e.extensions := by exact .empty

theorem stored : codec.Stored limit least (Deeper Storable) id := by
  have hmade : form.Assembled := by constructor <;> simp [form]
  have hfields : ∀ f ∈ form.fields, f.Law (limit - 1) (least - 1) Storable id {} := by
    simp only [form, List.forall_mem_cons]
    and_intros
    · exact .free (.always stored_text.toReturns) fun h => { h with }
    · exact .free (.optional stored_text) fun h => { h with }
    · exact List.forall_mem_nil _
  exact Record.stored rfl (by decide) hmade (fun _ _ => {}) hfields
    (.extensions (·.extensions) fun h ht => { h with extensions := ht })

end ExternalDocs

namespace Discriminator

structure Storable (n : Nat) (d : Discriminator) : Prop where
  mapping : Tabled Always n d.mapping := by exact .empty

theorem stored_form : form.codec.Stored limit least (Deeper Storable) id := by
  have hmade : form.Assembled := by constructor <;> simp [form]
  have hfields : ∀ f ∈ form.fields, f.Law (limit - 1) (least - 1) Storable id {} := by
    simp only [form, List.forall_mem_cons]
    and_intros
    · exact .free (.always stored_text.toReturns) fun h => { h with }
    · exact .of_cell (.table stored_text.toReturns) (·.mapping) fun h hv => { h with mapping := hv }
    · exact List.forall_mem_nil _
  exact Record.stored rfl (by decide) hmade (fun _ _ => {}) hfields .dropped

/-- A list gives a discriminator that is written as an object. -/
theorem stored : codec.Stored limit least (Deeper Storable) id where
  restores {n d} h := by
    have hform : form.codec.Stored limit least (Deeper Storable) id := stored_form
    exact ⟨(hform.restores h).height, (hform.restores h).whole, (hform.restores h).back⟩
  reads {j d n} hj hn hleast hd := by
    cases j with
    | array js =>
      have hpos : 0 < n := Nat.lt_of_lt_of_le (Json.height_array_pos js) hn
      obtain ⟨n, rfl⟩ := Nat.exists_eq_add_one.mpr hpos
      rw [Datum.ofJson, Datum.ofItems_eq] at hd
      rcases js with _ | ⟨name, _ | ⟨mapping, _ | ⟨more, js⟩⟩⟩
      · cases hd
        exact .intro {}
      · obtain ⟨s, -, rfl⟩ := Option.map_eq_some_iff.mp hd
        exact .intro {}
      · obtain ⟨s, -, hd⟩ := Option.bind_eq_some_iff.mp hd
        obtain ⟨t, ht, hd⟩ := Option.bind_eq_some_iff.mp hd
        cases hd
        have hmapping : mapping ∈ [name, mapping] := List.mem_cons_of_mem _ List.mem_cons_self
        have htable : (Codec.table .text).Stored limit 0 (Rows Always) id :=
          Codec.stored_rows stored_text.toReturns
        exact .intro ⟨fun _ => htable.reads (Json.isWhole_array.mp hj mapping hmapping)
          (Json.height_array_le.mp hn mapping hmapping) (Nat.zero_le n) ht⟩
      · simp only [codec] at hd
        cases hd
    | _ =>
      have hform : form.codec.Stored limit least (Deeper Storable) id := stored_form
      exact hform.reads hj hn hleast hd
  present := nofun

end Discriminator

namespace Additional

variable {α : Type}

def Storable (P : Nat → α → Prop) (n : Nat) : Additional α → Prop
  | .allowed _ => True
  | .schema s => P n s

theorem stored {c : Codec α} {P : Nat → α → Prop} (h : c.Stored limit least P id)
    (hobject : ∀ a, ∃ rows, c.encode a = .object rows) :
    (codec c).Stored limit least (Storable P) id where
  restores {n a} ha := by
    cases a with
    | allowed b => exact ⟨Nat.zero_le _, rfl, fun _ => rfl⟩
    | schema s =>
      have hback := h.restores ha
      refine ⟨hback.height, hback.whole, fun hlimit => ?_⟩
      have hs := hback.back hlimit
      obtain ⟨rows, hrows⟩ := hobject s
      simp only [codec, Datum.settled_ofJson, Option.bind_some]
      rw [hrows] at hs ⊢
      simp only [Datum.ofJson] at hs ⊢
      rw [hs]
      rfl
  reads {j a n} hj hn hleast ha := by
    simp only [codec, Datum.settled_ofJson, Option.bind_some] at ha
    split at ha
    · cases ha
      trivial
    · obtain ⟨s, hs, rfl⟩ := Option.map_eq_some_iff.mp ha
      exact h.reads hj hn hleast hs
  present {n a} ha := by
    cases a with
    | allowed b =>
      intro hnull
      cases hnull
    | schema s => exact h.present ha

end Additional

def Schema.names : List String := (form .never).names

structure Keywords.Storable (n : Nat) (k : Keywords) : Prop where
  multipleOf : ∀ x ∈ k.multipleOf, Codec.Whole n x := by rintro _ ⟨⟩
  maximum : ∀ x ∈ k.maximum, Codec.Whole n x := by rintro _ ⟨⟩
  minimum : ∀ x ∈ k.minimum, Codec.Whole n x := by rintro _ ⟨⟩
  maxLength : ∀ x ∈ k.maxLength, Codec.Word n x := by rintro _ ⟨⟩
  minLength : ∀ x ∈ k.minLength, Codec.Word n x := by rintro _ ⟨⟩
  maxItems : ∀ x ∈ k.maxItems, Codec.Word n x := by rintro _ ⟨⟩
  minItems : ∀ x ∈ k.minItems, Codec.Word n x := by rintro _ ⟨⟩
  maxProperties : ∀ x ∈ k.maxProperties, Codec.Word n x := by rintro _ ⟨⟩
  minProperties : ∀ x ∈ k.minProperties, Codec.Word n x := by rintro _ ⟨⟩
  required : Listed Always n k.required := by exact .nil
  enumeration : Listed Json.Clean n k.enumeration := by exact .nil
  discriminator : ∀ d ∈ k.discriminator, Deeper Discriminator.Storable n d := by rintro _ ⟨⟩
  default : ∀ j ∈ k.default, Field.Filled n j := by rintro _ ⟨⟩
  sample : ∀ j ∈ k.sample, Field.Filled n j := by rintro _ ⟨⟩
  externalDocs : ∀ e ∈ k.externalDocs, Deeper ExternalDocs.Storable n e := by rintro _ ⟨⟩
  extensions : Rest.Beside Schema.names Json.Clean n k.extensions := by exact .empty

namespace Schema

structure StorableOver (P : Nat → Schema → Prop) (n : Nat) (s : Schema) : Prop where
  keywords : s.keywords.Storable n := by exact {}
  properties : Tabled P n s.properties := by exact .empty
  items : ∀ c ∈ s.items, P n c := by rintro _ ⟨⟩
  negated : ∀ c ∈ s.negated, P n c := by rintro _ ⟨⟩
  allOf : Listed P n s.allOf := by exact .nil
  anyOf : Listed P n s.anyOf := by exact .nil
  oneOf : Listed P n s.oneOf := by exact .nil
  additional : ∀ a ∈ s.additional, a.Storable P n := by rintro _ ⟨⟩

theorem StorableOver.imp ⦃P Q : Nat → Schema → Prop⦄ ⦃n : Nat⦄ ⦃s : Schema⦄
    (hPQ : ∀ m ≤ n, ∀ c, P m c → Q m c) (h : StorableOver P n s) : StorableOver Q n s where
  keywords := h.keywords
  properties := h.properties.imp hPQ
  items c hc := hPQ n le_rfl c (h.items c hc)
  negated c hc := hPQ n le_rfl c (h.negated c hc)
  allOf := h.allOf.imp hPQ
  anyOf := h.anyOf.imp hPQ
  oneOf := h.oneOf.imp hPQ
  additional a ha := by
    have hs := h.additional a ha
    cases a with
    | allowed b => trivial
    | schema c => exact hPQ n le_rfl c hs

abbrev Storable : Nat → Schema → Prop := Nested StorableOver

end Schema

/-! ### The fields of a schema -/

namespace Keywords

theorem headings_laws : ∀ f ∈ headings, f.Law limit least Storable id {} := by
  simp only [headings, List.forall_mem_cons]
  and_intros
  any_goals exact .free (.optional stored_text) fun h => { h with }
  · exact .free (.optional SchemaType.stored) fun h => { h with }
  · exact List.forall_mem_nil _

theorem bounds_laws : ∀ f ∈ bounds, f.Law limit least Storable id {} := by
  simp only [bounds, List.forall_mem_cons]
  and_intros
  any_goals exact .free (.optional stored_flag) fun h => { h with }
  · exact .of_cell (.optional stored_number) (·.multipleOf) fun h hv => { h with multipleOf := hv }
  · exact .of_cell (.optional stored_number) (·.maximum) fun h hv => { h with maximum := hv }
  · exact .of_cell (.optional stored_number) (·.minimum) fun h hv => { h with minimum := hv }
  · exact .of_cell (.optional stored_natural) (·.maxLength) fun h hv => { h with maxLength := hv }
  · exact .of_cell (.optional stored_natural) (·.minLength) fun h hv => { h with minLength := hv }
  · exact .free (.optional stored_text) fun h => { h with }
  · exact .of_cell (.optional stored_natural) (·.maxItems) fun h hv => { h with maxItems := hv }
  · exact .of_cell (.optional stored_natural) (·.minItems) fun h hv => { h with minItems := hv }
  · exact .of_cell (.optional stored_natural) (·.maxProperties)
      fun h hv => { h with maxProperties := hv }
  · exact .of_cell (.optional stored_natural) (·.minProperties)
      fun h hv => { h with minProperties := hv }
  · exact .of_cell (.list stored_text.toReturns) (·.required) fun h hv => { h with required := hv }
  · exact .of_cell (.list returns_value) (·.enumeration) fun h hv => { h with enumeration := hv }
  · exact List.forall_mem_nil _

theorem notes_laws : ∀ f ∈ notes, f.Law limit least Storable id {} := by
  simp only [notes, List.forall_mem_cons]
  and_intros
  any_goals exact .free (.optional stored_flag) fun h => { h with }
  · exact .of_cell (.optional Discriminator.stored) (·.discriminator)
      fun h hv => { h with discriminator := hv }
  · exact .of_cell .value (·.default) fun h hv => { h with default := hv }
  · exact .of_cell .value (·.sample) fun h hv => { h with sample := hv }
  · exact .of_cell (.optional ExternalDocs.stored) (·.externalDocs)
      fun h hv => { h with externalDocs := hv }
  · exact List.forall_mem_nil _

end Keywords

namespace Schema

variable {P : Nat → Schema → Prop}

/-- A law of keywords is one of the schema that has them. -/
theorem keyword_law {f : Field Keywords} (h : f.Law limit least Keywords.Storable id {}) :
    (keyword f).Law limit least (StorableOver P) id {} where
  restores hs := h.restores hs.keywords
  keeps hj hn hleast hv hs := { hs with keywords := h.keeps hj hn hleast hv hs.keywords }

theorem extensions_law : (Rest.extensions (fun s : Schema => s.keywords.extensions) fun s v =>
    { s with keywords := { s.keywords with extensions := v } }).Law limit least names
      (StorableOver P) id :=
  .extensions (·.keywords.extensions) fun h ht =>
    { h with keywords := { h.keywords with extensions := ht } }

section

variable {inner : Codec Schema} (hobject : ∀ s, ∃ rows, inner.encode s = .object rows)

include hobject

theorem subschemas_laws (hinner : ∀ least, inner.Stored limit least P id) :
    ∀ f ∈ subschemas inner, f.Law limit least (StorableOver P) id {} := by
  simp only [subschemas, List.forall_mem_cons]
  and_intros
  · exact .of_cell (.optional (hinner _)) (·.items) fun h hv => { h with items := hv }
  · exact .of_cell (.table (hinner _).toReturns) (·.properties)
      fun h hv => { h with properties := hv }
  · exact .of_cell (.optional (Additional.stored (hinner _) hobject)) (·.additional)
      fun h hv => { h with additional := hv }
  · exact .of_cell (.list (hinner _).toReturns) (·.allOf) fun h hv => { h with allOf := hv }
  · exact .of_cell (.list (hinner _).toReturns) (·.anyOf) fun h hv => { h with anyOf := hv }
  · exact .of_cell (.list (hinner _).toReturns) (·.oneOf) fun h hv => { h with oneOf := hv }
  · exact .of_cell (.optional (hinner _)) (·.negated) fun h hv => { h with negated := hv }
  · exact List.forall_mem_nil _

theorem stored_form (hinner : ∀ least, inner.Stored (limit - 1) least P id) :
    (form inner).codec.Stored limit least (Deeper (StorableOver P)) id := by
  have hnames : (form inner).names = names := rfl
  have hmade : (form inner).Assembled := by
    constructor <;> rintro ⟨⟩ <;>
      simp [form, subschemas, keyword, Keywords.headings, Keywords.bounds, Keywords.notes]
  have hfields : ∀ f ∈ (form inner).fields,
      f.Law (limit - 1) (least - 1) (StorableOver P) id {} := by
    simp only [form, List.forall_mem_append, List.forall_mem_map, List.forall_mem_singleton]
    and_intros
    · exact .free (.optional stored_text) fun h => { h with }
    · exact fun f hf => keyword_law (Keywords.headings_laws f hf)
    · exact fun f hf => keyword_law (Keywords.bounds_laws f hf)
    · exact subschemas_laws hobject hinner
    · exact fun f hf => keyword_law (Keywords.notes_laws f hf)
  exact Record.stored hnames (by decide) hmade (fun _ _ => {}) hfields extensions_law

end

theorem toJson_object (s : Schema) : ∃ rows, s.toJson = .object rows :=
  ⟨_, s.toJson_eq⟩

theorem encode_form (read : Datum → Option Schema) : (form ⟨toJson, read⟩).encode = toJson :=
  funext fun s => (encode_form_congr fun _ _ => rfl).trans s.toJson_eq.symm

theorem decode_form (a b : Codec Schema) (h : a.decode = b.decode) :
    (form a).decode = (form b).decode := by
  refine Record.decode_congr rfl (fun d s => ?_) rfl
  simp [form, subschemas, Cell.optional, Additional.codec, Codec.decode_table_congr h,
    Codec.decode_list_congr h, h]

theorem stored : codec.Stored limit least (Deeper Storable) id := by
  have hzero : codecWithin 0 = .never := rfl
  exact Record.stored_levels hzero (fun _ => rfl) encode_form decode_form StorableOver.imp
    fun _ _ _ hinner _ => stored_form toJson_object hinner

end Schema

end ApiDoc
