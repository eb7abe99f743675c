import ApiDoc.Proofs.Form.Content

/-!
# Operations that can be stored

The same for operations, path items and callbacks, except that they come back without the
designations in their responses. Of those the property speaks separately: whatever is
read has none.
-/

set_option autoImplicit false

namespace ApiDoc

open Codec (stored_text stored_flag)

variable {limit least : Nat}

/-! ### What comes back -/

namespace ByMethod

def map {α : Type} (f : α → α) (s : ByMethod α) : ByMethod α :=
  ⟨s.get.map f, s.put.map f, s.post.map f, s.delete.map f, s.options.map f, s.head.map f,
    s.patch.map f, s.trace.map f⟩

end ByMethod

namespace PathItemOf

def map {operation : Type} (f : operation → operation) (i : PathItemOf operation) :
    PathItemOf operation :=
  { i with slots := i.slots.map f }

end PathItemOf

namespace CallbackOf

def map {operation : Type} (f : operation → operation) (c : CallbackOf operation) :
    CallbackOf operation :=
  { c with expressions := c.expressions.mapValues (PathItemOf.map f) }

end CallbackOf

namespace Operation

mutual
def undesignated : Operation → Operation
  | ⟨tags, summary, description, externalDocs, operationId, parameters, requestBody, responses,
      ⟨keys, rows, distinct⟩, deprecated, security, servers, extensions⟩ =>
    ⟨tags, summary, description, externalDocs, operationId, parameters, requestBody,
      responses.map Responses.undesignated, ⟨keys, undesignatedCallbacks rows, distinct⟩,
      deprecated, security, servers, extensions⟩
def undesignatedCallbacks {keys : List String} :
    Ordered.Rows (CallbackOf Operation) keys → Ordered.Rows (CallbackOf Operation) keys
  | .nil => .nil
  | .cons ⟨reference, ⟨keys, items, distinct⟩⟩ rows =>
    .cons ⟨reference, ⟨keys, undesignatedItems items, distinct⟩⟩ (undesignatedCallbacks rows)
def undesignatedItems {keys : List String} :
    Ordered.Rows (PathItemOf Operation) keys → Ordered.Rows (PathItemOf Operation) keys
  | .nil => .nil
  | .cons ⟨reference, summary, description,
      ⟨get, put, post, delete, options, head, patch, trace⟩, servers, parameters,
      extensions⟩ rows =>
    .cons ⟨reference, summary, description,
      ⟨undesignatedSlot get, undesignatedSlot put, undesignatedSlot post,
        undesignatedSlot delete, undesignatedSlot options, undesignatedSlot head,
        undesignatedSlot patch, undesignatedSlot trace⟩, servers, parameters,
      extensions⟩ (undesignatedItems rows)
def undesignatedSlot : Option Operation → Option Operation
  | some o => some o.undesignated
  | none => none
end

theorem undesignatedSlot_eq (slot : Option Operation) :
    undesignatedSlot slot = slot.map undesignated := by
  cases slot <;> rfl

theorem undesignatedItems_eq {keys : List String} (rows : Ordered.Rows PathItem keys) :
    undesignatedItems rows = rows.map (PathItemOf.map undesignated) := by
  induction rows with
  | nil => rfl
  | cons item rows ih =>
    simp only [undesignatedItems, ih, undesignatedSlot_eq, Ordered.Rows.map, PathItemOf.map,
      ByMethod.map]

theorem undesignatedCallbacks_eq {keys : List String} (rows : Ordered.Rows Callback keys) :
    undesignatedCallbacks rows = rows.map (CallbackOf.map undesignated) := by
  induction rows with
  | nil => rfl
  | cons callback rows ih =>
    simp only [undesignatedCallbacks, ih, undesignatedItems_eq, Ordered.Rows.map, CallbackOf.map,
      Ordered.mapValues]

/-- One level: the own responses, and the operations in the callbacks. -/
theorem undesignated_eq (o : Operation) : o.undesignated =
    { o with
      responses := o.responses.map Responses.undesignated
      callbacks := o.callbacks.mapValues (CallbackOf.map undesignated) } := by
  cases o
  rw [undesignated, undesignatedCallbacks_eq, Ordered.mapValues]

end Operation

namespace PathItem

def undesignated : PathItem → PathItem := PathItemOf.map Operation.undesignated

end PathItem

namespace Callback

def undesignated : Callback → Callback := CallbackOf.map Operation.undesignated

end Callback

/-! ### What can be stored -/

theorem SecurityRequirement.stored : codec.Stored limit least (Rows (Items Always)) id :=
  Codec.stored_rows (Codec.stored_list stored_text.toReturns).toReturns

namespace PathItemOf

variable {operation : Type} {P Q : Nat → operation → Prop} {n : Nat} {f : operation → operation}

def names : List String := (form (.never : Codec Unit)).names

structure Storable (P : Nat → operation → Prop) (n : Nat) (i : PathItemOf operation) : Prop where
  slots : ∀ m, ∀ o ∈ i.slots.at? m, P n o := by rintro (_ | _) _ ⟨⟩
  servers : Listed (Deeper Server.Storable) n i.servers := by exact .nil
  parameters : Listed (Deeper Parameter.Storable) n i.parameters := by exact .nil
  extensions : Rest.Beside names Json.Clean n i.extensions := by exact .empty

theorem Storable.imp {i : PathItemOf operation} (hPQ : ∀ m ≤ n, ∀ c, P m c → Q m c)
    (hi : Storable P n i) : Storable Q n i :=
  { hi with slots := fun m o ho => hPQ n le_rfl o (hi.slots m o ho) }

theorem slot_law {inner : Codec operation} (hinner : inner.Stored limit least P f)
    (m : HttpMethod) : (slot inner m).Law limit least (Storable P) (map f) {} := by
  refine .of_cell (.optionalAs hinner) (fun hi => hi.slots m) (fun {n i v} hi hv => ?_)
    (fun i => ?_) ?_
  · refine { hi with slots := fun other o ho => ?_ }
    by_cases he : other = m
    · subst he
      rw [ByMethod.at?_set_self] at ho
      exact hv o ho
    · rw [ByMethod.at?_set_ne _ he] at ho
      exact hi.slots other o ho
  · cases m <;> rfl
  · cases m <;> rfl

theorem decode_form {a b : Codec operation} (h : a.decode = b.decode) :
    (form a).codec.decode = (form b).codec.decode := by
  refine Record.decode_congr rfl (fun d i => ?_) rfl
  simp [form, slot, Cell.optional, h]

theorem names_form (inner : Codec operation) : (form inner).names = names := by
  simp [names, Record.names, form, slot]

theorem stored {inner : Codec operation} (hinner : ∀ least, inner.Stored limit least P f) :
    (form inner).codec.Stored limit least (Deeper (Storable P)) (map f) := by
  have hslot : inner.Stored (limit - 1) (least - 1) P f := (hinner _).mono (Nat.sub_le ..)
  have hmade : (form inner).Assembled := by
    constructor <;> simp [form, slot, HttpMethod.all, ByMethod.set, ByMethod.at?]
  have hfields : ∀ field ∈ (form inner).fields,
      field.Law (limit - 1) (least - 1) (Storable P) (map f) {} := by
    simp only [form, List.forall_mem_append, List.forall_mem_map, List.forall_mem_cons]
    and_intros
    any_goals exact .free (.optional stored_text) fun h => { h with }
    · exact List.forall_mem_nil _
    · exact fun m _ => slot_law hslot m
    · exact .of_cell (.list Server.stored.toReturns) (·.servers)
        fun h hv => { h with servers := hv }
    · exact .of_cell (.list Parameter.stored.toReturns) (·.parameters)
        fun h hv => { h with parameters := hv }
    · exact List.forall_mem_nil _
  exact Record.stored (names_form inner) (by decide) hmade (fun _ _ => {}) hfields
    (.extensions (·.extensions) fun h ht => { h with extensions := ht })

end PathItemOf

namespace CallbackOf

variable {operation : Type} {P Q : Nat → operation → Prop} {n : Nat} {f : operation → operation}

def names : List String := (form (.never : Codec Unit)).names

structure Storable (P : Nat → operation → Prop) (n : Nat) (c : CallbackOf operation) : Prop where
  expressions : Rest.Beside names (Deeper (PathItemOf.Storable P)) n c.expressions := by
    exact .empty

theorem Storable.imp {c : CallbackOf operation} (hPQ : ∀ m ≤ n, ∀ o, P m o → Q m o)
    (hc : Storable P n c) : Storable Q n c where
  expressions :=
    { hc.expressions with
      values := fun row hrow => (hc.expressions.values row hrow).imp fun _ hm hi =>
        hi.imp fun k hk => hPQ k (hk.trans hm) }

theorem decode_form {a b : Codec operation} (h : a.decode = b.decode) :
    (form a).codec.decode = (form b).codec.decode := by
  refine Record.decode_congr rfl (fun _ _ => rfl) ?_
  funext rows c
  simp only [form, Rest.read, Rest.table, Codec.settled, PathItemOf.decode_form h]

theorem names_form (inner : Codec operation) : (form inner).names = names := by
  simp [names, Record.names, form]

theorem stored {inner : Codec operation} (hinner : ∀ least, inner.Stored limit least P f) :
    (form inner).codec.Stored limit least (Deeper (Storable P)) (map f) := by
  have hmade : (form inner).Assembled := by constructor <;> simp [form]
  have hfields : ∀ field ∈ (form inner).fields,
      field.Law (limit - 1) (least - 1) (Storable P) (map f) {} := by
    simp only [form, List.forall_mem_cons]
    and_intros
    · exact .free (.optional stored_text) fun h => { h with }
    · exact List.forall_mem_nil _
  exact Record.stored (names_form inner) (by decide) hmade (fun _ _ => {}) hfields
    (.tableAs ((PathItemOf.stored hinner).mono (Nat.sub_le ..)).toReturns (·.expressions)
      fun h ht => { h with expressions := ht })

end CallbackOf

namespace Operation

def names : List String := (form .never).names

structure StorableOver (D : Option String → Prop) (P : Nat → Operation → Prop) (n : Nat)
    (o : Operation) : Prop where
  tags : Listed Always n o.tags := by exact .nil
  externalDocs : ∀ v ∈ o.externalDocs, Deeper ExternalDocs.Storable n v := by rintro _ ⟨⟩
  parameters : Listed (Deeper Parameter.Storable) n o.parameters := by exact .nil
  requestBody : ∀ v ∈ o.requestBody, Deeper RequestBody.Storable n v := by rintro _ ⟨⟩
  responses : ∀ v ∈ o.responses, Responses.Storable D n v := by rintro _ ⟨⟩
  callbacks : Tabled (Deeper (CallbackOf.Storable P)) n o.callbacks := by exact .empty
  security : ∀ v ∈ o.security, Items (Rows (Items Always)) n v := by rintro _ ⟨⟩
  servers : Listed (Deeper Server.Storable) n o.servers := by exact .nil
  extensions : Rest.Beside names Json.Clean n o.extensions := by exact .empty

abbrev Storable (D : Option String → Prop) : Nat → Operation → Prop := Nested (StorableOver D)

variable {D : Option String → Prop}

theorem StorableOver.imp ⦃P Q : Nat → Operation → Prop⦄ ⦃n : Nat⦄ ⦃o : Operation⦄
    (hPQ : ∀ m ≤ n, ∀ c, P m c → Q m c) (h : StorableOver D P n o) : StorableOver D Q n o :=
  { h with
    callbacks := h.callbacks.imp fun _ hm _ hc => hc.imp fun _ hk hc =>
      hc.imp fun m hle => hPQ m (hle.trans (hk.trans hm)) }

theorem decode_form (a b : Codec Operation) (h : a.decode = b.decode) :
    (form a).decode = (form b).decode := by
  refine Record.decode_congr rfl (fun d o => ?_) rfl
  simp [form, Codec.decode_table_congr (CallbackOf.decode_form h)]

theorem names_form (inner : Codec Operation) : (form inner).names = names := by
  simp [names, Record.names, form]

theorem encode_form (read : Datum → Option Operation) :
    (form ⟨toJson, read⟩).encode = toJson := by
  have hsame : ∀ o, Codec.encode ⟨toJson, read⟩ o = codec.encode o := fun _ => rfl
  funext o
  rw [toJson_eq]
  exact encode_form_congr fun _ _ _ _ _ o _ => hsame o

variable (hD : D none)

include hD

theorem stored_form {inner : Codec Operation} {P : Nat → Operation → Prop}
    (hinner : ∀ least, inner.Stored (limit - 1) least P undesignated) :
    (form inner).codec.Stored limit least (Deeper (StorableOver D P)) undesignated := by
  have hmade : (form inner).Assembled := by constructor <;> rintro ⟨⟩ <;> simp [form]
  have hfields : ∀ f ∈ (form inner).fields,
      f.Law (limit - 1) (least - 1) (StorableOver D P) undesignated {} := by
    rw [show undesignated = _ from funext undesignated_eq]
    simp only [form, List.forall_mem_cons]
    and_intros
    any_goals exact .free (.optional stored_text) fun h => { h with }
    · exact .of_cell (.list stored_text.toReturns) (·.tags) fun h hv => { h with tags := hv }
    · exact .of_cell (.optional ExternalDocs.stored) (·.externalDocs)
        fun h hv => { h with externalDocs := hv }
    · exact .of_cell (.list Parameter.stored.toReturns) (·.parameters)
        fun h hv => { h with parameters := hv }
    · exact .of_cell (.optional RequestBody.stored) (·.requestBody)
        fun h hv => { h with requestBody := hv }
    · exact .of_cell (.optionalAs (Responses.stored hD)) (·.responses)
        fun h hv => { h with responses := hv }
    · exact .of_cell (.tableAs (CallbackOf.stored hinner).toReturns) (·.callbacks)
        fun h hv => { h with callbacks := hv }
    · exact .free (.optional stored_flag) fun h => { h with }
    · exact .of_cell (.optional (Codec.stored_list SecurityRequirement.stored.toReturns))
        (·.security) fun h hv => { h with security := hv }
    · exact .of_cell (.list Server.stored.toReturns) (·.servers)
        fun h hv => { h with servers := hv }
    · exact List.forall_mem_nil _
  exact Record.stored (names_form inner) (by decide) hmade (fun _ _ => {}) hfields
    (.extensions (·.extensions) (fun h ht => { h with extensions := ht })
      fun o => by rw [undesignated_eq])

theorem stored : codec.Stored limit least (Deeper (Storable D)) undesignated := by
  have hzero : codecWithin 0 = .never := rfl
  exact Record.stored_levels hzero (fun _ => rfl) encode_form decode_form StorableOver.imp
    fun _ _ _ hinner _ => stored_form hD hinner

end Operation

namespace PathItem

abbrev Storable (D : Option String → Prop) : Nat → PathItem → Prop :=
  PathItemOf.Storable (Deeper (Operation.Storable D))

theorem stored {D : Option String → Prop} (hD : D none) :
    codec.Stored limit least (Deeper (Storable D)) undesignated :=
  PathItemOf.stored fun _ => Operation.stored hD

end PathItem

namespace Callback

abbrev Storable (D : Option String → Prop) : Nat → Callback → Prop :=
  CallbackOf.Storable (Deeper (Operation.Storable D))

theorem stored {D : Option String → Prop} (hD : D none) :
    codec.Stored limit least (Deeper (Storable D)) undesignated :=
  CallbackOf.stored fun _ => Operation.stored hD

end Callback

end ApiDoc
