import ApiDoc.Proofs.Form.Schema

/-!
# Payloads that can be stored

The same for media types, headers, parameters, bodies, responses and what they hold. A
header and an encoding are told with what holds of the media types in them.
-/

set_option autoImplicit false

namespace ApiDoc

open Codec (stored_text stored_flag returns_value)

variable {limit least : Nat}

theorem ParameterLocation.stored : codec.Stored limit least Always id :=
  Codec.stored_word fun l => by cases l <;> rfl

theorem ParameterStyle.stored : codec.Stored limit least Always id :=
  Codec.stored_word fun s => by cases s <;> rfl

namespace Example

structure Storable (n : Nat) (e : Example) : Prop where
  value : ∀ j ∈ e.value, Field.Filled n j := by rintro _ ⟨⟩
  extensions : Rest.Beside form.names Json.Clean n e.extensions := by exact .empty

theorem stored : codec.Stored limit least (Deeper Storable) id := by
  have hmade : form.Assembled := by constructor <;> simp [form]
  have hfields : ∀ f ∈ form.fields, f.Law (limit - 1) (least - 1) Storable id {} := by
    simp only [form, List.forall_mem_cons]
    and_intros
    any_goals exact .free (.optional stored_text) fun h => { h with }
    · exact .of_cell .value (·.value) fun h hv => { h with value := hv }
    · exact List.forall_mem_nil _
  exact Record.stored rfl (by decide) hmade (fun _ _ => {}) hfields
    (.extensions (·.extensions) fun h ht => { h with extensions := ht })

end Example

namespace HeaderOf

variable {media : Type} {P Q : Nat → media → Prop} {n : Nat}

def names : List String := (form (.never : Codec Unit)).names

structure Storable (P : Nat → media → Prop) (n : Nat) (h : HeaderOf media) : Prop where
  schema : ∀ v ∈ h.schema, Deeper Schema.Storable n v := by rintro _ ⟨⟩
  sample : ∀ j ∈ h.sample, Field.Filled n j := by rintro _ ⟨⟩
  examples : Tabled (Deeper Example.Storable) n h.examples := by exact .empty
  content : Tabled P n h.content := by exact .empty
  extensions : Rest.Beside names Json.Clean n h.extensions := by exact .empty

theorem Storable.imp {h : HeaderOf media} (hPQ : ∀ m ≤ n, ∀ c, P m c → Q m c)
    (hh : Storable P n h) : Storable Q n h :=
  { hh with content := hh.content.imp hPQ }

theorem decode_form {a b : Codec media} (h : a.decode = b.decode) :
    (form a).codec.decode = (form b).codec.decode := by
  refine Record.decode_congr rfl (fun d r => ?_) rfl
  simp [form, Codec.decode_table_congr h]

theorem names_form (inner : Codec media) : (form inner).names = names := by
  simp [names, Record.names, form]

theorem stored {inner : Codec media}
    (hinner : ∀ least, inner.Returns limit least P id) :
    (form inner).codec.Stored limit least (Deeper (Storable P)) id := by
  have hmade : (form inner).Assembled := by constructor <;> simp [form]
  have hfields : ∀ f ∈ (form inner).fields, f.Law (limit - 1) (least - 1) (Storable P) id {} := by
    simp only [form, List.forall_mem_cons]
    and_intros
    any_goals exact .free (.optional stored_text) fun h => { h with }
    any_goals exact .free (.optional stored_flag) fun h => { h with }
    · exact .free (.optional ParameterStyle.stored) fun h => { h with }
    · exact .of_cell (.optional Schema.stored) (·.schema) fun h hv => { h with schema := hv }
    · exact .of_cell .value (·.sample) fun h hv => { h with sample := hv }
    · exact .of_cell (.table Example.stored.toReturns) (·.examples)
        fun h hv => { h with examples := hv }
    · exact .of_cell (.table ((hinner _).mono (Nat.sub_le ..))) (·.content)
        fun h hv => { h with content := hv }
    · exact List.forall_mem_nil _
  exact Record.stored (names_form inner) (by decide) hmade (fun _ _ => {}) hfields
    (.extensions (·.extensions) fun h ht => { h with extensions := ht })

end HeaderOf

namespace EncodingOf

variable {media : Type} {P Q : Nat → media → Prop} {n : Nat}

def names : List String := (form (.never : Codec Unit)).names

structure Storable (P : Nat → media → Prop) (n : Nat) (e : EncodingOf media) : Prop where
  headers : Tabled (Deeper (HeaderOf.Storable P)) n e.headers := by exact .empty
  extensions : Rest.Beside names Json.Clean n e.extensions := by exact .empty

theorem Storable.imp {e : EncodingOf media} (hPQ : ∀ m ≤ n, ∀ c, P m c → Q m c)
    (he : Storable P n e) : Storable Q n e :=
  { he with
    headers := he.headers.imp fun _ hm _ hh => hh.imp fun _ hk hh =>
      hh.imp fun m hle => hPQ m (hle.trans (hk.trans hm)) }

theorem decode_form {a b : Codec media} (h : a.decode = b.decode) :
    (form a).codec.decode = (form b).codec.decode := by
  refine Record.decode_congr rfl (fun d r => ?_) rfl
  simp [form, Codec.decode_table_congr (HeaderOf.decode_form h)]

theorem names_form (inner : Codec media) : (form inner).names = names := by
  simp [names, Record.names, form]

theorem stored {inner : Codec media}
    (hinner : ∀ least, inner.Returns limit least P id) :
    (form inner).codec.Stored limit least (Deeper (Storable P)) id := by
  have hmade : (form inner).Assembled := by constructor <;> simp [form]
  have hfields : ∀ f ∈ (form inner).fields, f.Law (limit - 1) (least - 1) (Storable P) id {} := by
    simp only [form, List.forall_mem_cons]
    and_intros
    any_goals exact .free (.optional stored_flag) fun h => { h with }
    · exact .free (.optional stored_text) fun h => { h with }
    · exact .of_cell (.table ((HeaderOf.stored hinner).mono (Nat.sub_le ..)).toReturns) (·.headers)
        fun h hv => { h with headers := hv }
    · exact .free (.optional ParameterStyle.stored) fun h => { h with }
    · exact List.forall_mem_nil _
  exact Record.stored (names_form inner) (by decide) hmade (fun _ _ => {}) hfields
    (.extensions (·.extensions) fun h ht => { h with extensions := ht })

end EncodingOf

namespace MediaType

def names : List String := (form .never).names

structure StorableOver (P : Nat → MediaType → Prop) (n : Nat) (m : MediaType) : Prop where
  schema : ∀ v ∈ m.schema, Deeper Schema.Storable n v := by rintro _ ⟨⟩
  sample : ∀ j ∈ m.sample, Field.Filled n j := by rintro _ ⟨⟩
  examples : Tabled (Deeper Example.Storable) n m.examples := by exact .empty
  encoding : Tabled (Deeper (EncodingOf.Storable P)) n m.encoding := by exact .empty
  extensions : Rest.Beside names Json.Clean n m.extensions := by exact .empty

abbrev Storable : Nat → MediaType → Prop := Nested StorableOver

theorem StorableOver.imp ⦃P Q : Nat → MediaType → Prop⦄ ⦃n : Nat⦄ ⦃m : MediaType⦄
    (hPQ : ∀ m ≤ n, ∀ c, P m c → Q m c) (h : StorableOver P n m) : StorableOver Q n m :=
  { h with
    encoding := h.encoding.imp fun _ hm _ he => he.imp fun _ hk he =>
      he.imp fun m hle => hPQ m (hle.trans (hk.trans hm)) }

theorem decode_form (a b : Codec MediaType) (h : a.decode = b.decode) :
    (form a).decode = (form b).decode := by
  refine Record.decode_congr rfl (fun d r => ?_) rfl
  simp [form, Codec.decode_table_congr (EncodingOf.decode_form h)]

theorem names_form (inner : Codec MediaType) : (form inner).names = names := by
  simp [names, Record.names, form]

theorem stored_form {inner : Codec MediaType} {P : Nat → MediaType → Prop}
    (hinner : ∀ least, inner.Returns (limit - 1) least P id) :
    (form inner).codec.Stored limit least (Deeper (StorableOver P)) id := by
  have hmade : (form inner).Assembled := by constructor <;> rintro ⟨⟩ <;> simp [form]
  have hfields : ∀ f ∈ (form inner).fields,
      f.Law (limit - 1) (least - 1) (StorableOver P) id {} := by
    simp only [form, List.forall_mem_cons]
    and_intros
    · exact .of_cell (.optional Schema.stored) (·.schema) fun h hv => { h with schema := hv }
    · exact .of_cell .value (·.sample) fun h hv => { h with sample := hv }
    · exact .of_cell (.table Example.stored.toReturns) (·.examples)
        fun h hv => { h with examples := hv }
    · exact .of_cell (.table (EncodingOf.stored hinner).toReturns) (·.encoding)
        fun h hv => { h with encoding := hv }
    · exact List.forall_mem_nil _
  exact Record.stored (names_form inner) (by decide) hmade (fun _ _ => {}) hfields
    (.extensions (·.extensions) fun h ht => { h with extensions := ht })

theorem encode_form (read : Datum → Option MediaType) :
    (form ⟨toJson, read⟩).encode = toJson := by
  have hsame : ∀ m, Codec.encode ⟨toJson, read⟩ m = codec.encode m := fun _ => rfl
  funext m
  rw [toJson_eq]
  exact encode_form_congr fun _ _ _ _ c _ => hsame c.2

theorem stored : codec.Stored limit least (Deeper Storable) id := by
  have hzero : codecWithin 0 = .never := rfl
  exact Record.stored_levels hzero (fun _ => rfl) encode_form decode_form StorableOver.imp
    fun _ _ _ hinner _ => stored_form fun least => (hinner least).toReturns

end MediaType

namespace Header

abbrev Storable : Nat → Header → Prop := HeaderOf.Storable (Deeper MediaType.Storable)

theorem stored : codec.Stored limit least (Deeper Storable) id :=
  HeaderOf.stored fun _ => MediaType.stored.toReturns

end Header

namespace Parameter

structure Storable (n : Nat) (p : Parameter) : Prop where
  schema : ∀ v ∈ p.schema, Deeper Schema.Storable n v := by rintro _ ⟨⟩
  sample : ∀ j ∈ p.sample, Field.Filled n j := by rintro _ ⟨⟩
  examples : Tabled (Deeper Example.Storable) n p.examples := by exact .empty
  content : Tabled (Deeper MediaType.Storable) n p.content := by exact .empty
  extensions : Rest.Beside form.names Json.Clean n p.extensions := by exact .empty

theorem stored : codec.Stored limit least (Deeper Storable) id := by
  have hmade : form.Assembled := by constructor <;> simp [form]
  have hfields : ∀ f ∈ form.fields, f.Law (limit - 1) (least - 1) Storable id {} := by
    simp only [form, List.forall_mem_cons]
    and_intros
    any_goals exact .free (.optional stored_text) fun h => { h with }
    any_goals exact .free (.optional stored_flag) fun h => { h with }
    · exact .free (.optional ParameterLocation.stored) fun h => { h with }
    · exact .free (.optional ParameterStyle.stored) fun h => { h with }
    · exact .of_cell (.optional Schema.stored) (·.schema) fun h hv => { h with schema := hv }
    · exact .of_cell .value (·.sample) fun h hv => { h with sample := hv }
    · exact .of_cell (.table Example.stored.toReturns) (·.examples)
        fun h hv => { h with examples := hv }
    · exact .of_cell (.table MediaType.stored.toReturns) (·.content)
        fun h hv => { h with content := hv }
    · exact List.forall_mem_nil _
  exact Record.stored rfl (by decide) hmade (fun _ _ => {}) hfields
    (.extensions (·.extensions) fun h ht => { h with extensions := ht })

end Parameter

namespace RequestBody

structure Storable (n : Nat) (b : RequestBody) : Prop where
  content : Tabled (Deeper MediaType.Storable) n b.content := by exact .empty
  extensions : Rest.Beside form.names Json.Clean n b.extensions := by exact .empty

theorem stored : codec.Stored limit least (Deeper Storable) id := by
  have hmade : form.Assembled := by constructor <;> simp [form]
  have hfields : ∀ f ∈ form.fields, f.Law (limit - 1) (least - 1) Storable id {} := by
    simp only [form, List.forall_mem_cons]
    and_intros
    any_goals exact .free (.optional stored_text) fun h => { h with }
    · exact .of_cell (.table MediaType.stored.toReturns) (·.content)
        fun h hv => { h with content := hv }
    · exact .free (.optional stored_flag) fun h => { h with }
    · exact List.forall_mem_nil _
  exact Record.stored rfl (by decide) hmade (fun _ _ => {}) hfields
    (.extensions (·.extensions) fun h ht => { h with extensions := ht })

end RequestBody

namespace ServerVariable

structure Storable (n : Nat) (v : ServerVariable) : Prop where
  enumeration : Listed Always n v.enumeration := by exact .nil
  extensions : Rest.Beside form.names Json.Clean n v.extensions := by exact .empty

theorem stored : codec.Stored limit least (Deeper Storable) id := by
  have hmade : form.Assembled := by constructor <;> simp [form]
  have hfields : ∀ f ∈ form.fields, f.Law (limit - 1) (least - 1) Storable id {} := by
    simp only [form, List.forall_mem_cons]
    and_intros
    · exact .free (.always stored_text.toReturns) fun h => { h with }
    · exact .of_cell (.list stored_text.toReturns) (·.enumeration)
        fun h hv => { h with enumeration := hv }
    · exact .free (.optional stored_text) fun h => { h with }
    · exact List.forall_mem_nil _
  exact Record.stored rfl (by decide) hmade (fun _ _ => {}) hfields
    (.extensions (·.extensions) fun h ht => { h with extensions := ht })

end ServerVariable

namespace Server

structure Storable (n : Nat) (s : Server) : Prop where
  placeholders : Tabled (Deeper ServerVariable.Storable) n s.placeholders := by exact .empty
  extensions : Rest.Beside form.names Json.Clean n s.extensions := by exact .empty

theorem stored : codec.Stored limit least (Deeper Storable) id := by
  have hmade : form.Assembled := by constructor <;> simp [form]
  have hfields : ∀ f ∈ form.fields, f.Law (limit - 1) (least - 1) Storable id {} := by
    simp only [form, List.forall_mem_cons]
    and_intros
    · exact .free (.always stored_text.toReturns) fun h => { h with }
    · exact .free (.optional stored_text) fun h => { h with }
    · exact .of_cell (.table ServerVariable.stored.toReturns) (·.placeholders)
        fun h hv => { h with placeholders := hv }
    · exact List.forall_mem_nil _
  exact Record.stored rfl (by decide) hmade (fun _ _ => {}) hfields
    (.extensions (·.extensions) fun h ht => { h with extensions := ht })

end Server

namespace Link

structure Storable (n : Nat) (l : Link) : Prop where
  parameters : Tabled Json.Clean n l.parameters := by exact .empty
  requestBody : ∀ j ∈ l.requestBody, Field.Filled n j := by rintro _ ⟨⟩
  server : ∀ v ∈ l.server, Deeper Server.Storable n v := by rintro _ ⟨⟩
  extensions : Rest.Beside form.names Json.Clean n l.extensions := by exact .empty

theorem stored : codec.Stored limit least (Deeper Storable) id := by
  have hmade : form.Assembled := by constructor <;> simp [form]
  have hfields : ∀ f ∈ form.fields, f.Law (limit - 1) (least - 1) Storable id {} := by
    simp only [form, List.forall_mem_cons]
    and_intros
    any_goals exact .free (.optional stored_text) fun h => { h with }
    · exact .of_cell (.table returns_value) (·.parameters) fun h hv => { h with parameters := hv }
    · exact .of_cell .value (·.requestBody) fun h hv => { h with requestBody := hv }
    · exact .of_cell (.optional Server.stored) (·.server) fun h hv => { h with server := hv }
    · exact List.forall_mem_nil _
  exact Record.stored rfl (by decide) hmade (fun _ _ => {}) hfields
    (.extensions (·.extensions) fun h ht => { h with extensions := ht })

end Link

namespace Response

structure Storable (n : Nat) (r : Response) : Prop where
  headers : Tabled (Deeper Header.Storable) n r.headers := by exact .empty
  content : Tabled (Deeper MediaType.Storable) n r.content := by exact .empty
  links : Tabled (Deeper Link.Storable) n r.links := by exact .empty
  extensions : Rest.Beside form.names Json.Clean n r.extensions := by exact .empty

theorem stored : codec.Stored limit least (Deeper Storable) id := by
  have hmade : form.Assembled := by constructor <;> simp [form]
  have hfields : ∀ f ∈ form.fields, f.Law (limit - 1) (least - 1) Storable id {} := by
    simp only [form, List.forall_mem_cons]
    and_intros
    any_goals exact .free (.optional stored_text) fun h => { h with }
    · exact .of_cell (.table Header.stored.toReturns) (·.headers)
        fun h hv => { h with headers := hv }
    · exact .of_cell (.table MediaType.stored.toReturns) (·.content)
        fun h hv => { h with content := hv }
    · exact .of_cell (.table Link.stored.toReturns) (·.links) fun h hv => { h with links := hv }
    · exact List.forall_mem_nil _
  exact Record.stored rfl (by decide) hmade (fun _ _ => {}) hfields
    (.extensions (·.extensions) fun h ht => { h with extensions := ht })

end Response

namespace Responses

def undesignated (r : Responses) : Responses := { entries := r.entries }

def Free (_ : Option String) : Prop := True

def Bare (status : Option String) : Prop := status = none

/-- The status that is designated has a property of its own. -/
structure Storable (D : Option String → Prop) (n : Nat) (r : Responses) : Prop where
  entries : Rows (Deeper Response.Storable) n r.entries
  designated : D r.designated

theorem stored {D : Option String → Prop} (hD : D none) :
    codec.Stored limit least (Storable D) undesignated where
  restores {n r} h := by
    have htable : (Codec.table Response.codec).Stored limit least (Rows (Deeper Response.Storable))
        id := Codec.stored_rows Response.stored.toReturns
    have hback := htable.restores h.entries
    refine ⟨hback.height, hback.whole, fun hlimit => ?_⟩
    exact (congrArg (Option.map _) (hback.back hlimit)).trans rfl
  reads {j r n} hj hn hleast hr := by
    have htable : (Codec.table Response.codec).Stored limit least (Rows (Deeper Response.Storable))
        id := Codec.stored_rows Response.stored.toReturns
    obtain ⟨t, ht, rfl⟩ := Option.map_eq_some_iff.mp hr
    exact ⟨htable.reads hj hn hleast ht, hD⟩
  present := nofun

end Responses

end ApiDoc
