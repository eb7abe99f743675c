import ApiDoc.Form.Document
import ApiDoc.Proofs.Form.Operation

/-!
# Documents that can be stored

The same for documents and what else stands in them. The scopes of an authorization flow
are written also where they were left out, so that a document may have more levels than
the form that it is read from, though never more than seven on that account.
-/

set_option autoImplicit false

namespace ApiDoc

open Codec (stored_text)

variable {limit least : Nat}

theorem SecuritySchemeType.stored : codec.Stored limit least Always id :=
  Codec.stored_word fun t => by cases t <;> rfl

theorem KeyLocation.stored : codec.Stored limit least Always id :=
  Codec.stored_word fun l => by cases l <;> rfl

namespace Contact

structure Storable (n : Nat) (c : Contact) : Prop where
  extensions : Rest.Beside form.names Json.Clean n c.extensions := by exact .empty

theorem stored : codec.Stored limit least (Deeper Storable) id := by
  have hmade : form.Assembled := by constructor <;> simp [form]
  have hfields : ∀ f ∈ form.fields, f.Law (limit - 1) (least - 1) Storable id {} := by
    simp only [form, List.forall_mem_cons]
    and_intros
    any_goals exact .free (.optional stored_text) fun h => { h with }
    · exact List.forall_mem_nil _
  exact Record.stored rfl (by decide) hmade (fun _ _ => {}) hfields
    (.extensions (·.extensions) fun h ht => { h with extensions := ht })

end Contact

namespace License

structure Storable (n : Nat) (l : License) : Prop where
  extensions : Rest.Beside form.names Json.Clean n l.extensions := by exact .empty

theorem stored : codec.Stored limit least (Deeper Storable) id := by
  have hmade : form.Assembled := by constructor <;> simp [form]
  have hfields : ∀ f ∈ form.fields, f.Law (limit - 1) (least - 1) Storable id {} := by
    simp only [form, List.forall_mem_cons]
    and_intros
    · exact .free (.always stored_text.toReturns) fun h => { h with }
    · exact .free (.optional stored_text) fun h => { h with }
    · exact List.forall_mem_nil _
  exact Record.stored rfl (by decide) hmade (fun _ _ => {}) hfields
    (.extensions (·.extensions) fun h ht => { h with extensions := ht })

end License

namespace Info

structure Storable (n : Nat) (i : Info) : Prop where
  contact : ∀ v ∈ i.contact, Deeper Contact.Storable n v := by rintro _ ⟨⟩
  license : ∀ v ∈ i.license, Deeper License.Storable n v := by rintro _ ⟨⟩
  extensions : Rest.Beside form.names Json.Clean n i.extensions := by exact .empty

theorem stored : codec.Stored limit least (Deeper Storable) id := by
  have hmade : form.Assembled := by constructor <;> simp [form]
  have hfields : ∀ f ∈ form.fields, f.Law (limit - 1) (least - 1) Storable id {} := by
    simp only [form, List.forall_mem_cons]
    and_intros
    any_goals exact .free (.always stored_text.toReturns) fun h => { h with }
    any_goals exact .free (.optional stored_text) fun h => { h with }
    · exact .of_cell (.optional Contact.stored) (·.contact) fun h hv => { h with contact := hv }
    · exact .of_cell (.optional License.stored) (·.license) fun h hv => { h with license := hv }
    · exact List.forall_mem_nil _
  exact Record.stored rfl (by decide) hmade (fun _ _ => {}) hfields
    (.extensions (·.extensions) fun h ht => { h with extensions := ht })

end Info

namespace Tag

structure Storable (n : Nat) (t : Tag) : Prop where
  externalDocs : ∀ v ∈ t.externalDocs, Deeper ExternalDocs.Storable n v := by rintro _ ⟨⟩
  extensions : Rest.Beside form.names Json.Clean n t.extensions := by exact .empty

theorem stored : codec.Stored limit least (Deeper Storable) id := by
  have hmade : form.Assembled := by constructor <;> simp [form]
  have hfields : ∀ f ∈ form.fields, f.Law (limit - 1) (least - 1) Storable id {} := by
    simp only [form, List.forall_mem_cons]
    and_intros
    · exact .free (.always stored_text.toReturns) fun h => { h with }
    · exact .free (.optional stored_text) fun h => { h with }
    · exact .of_cell (.optional ExternalDocs.stored) (·.externalDocs)
        fun h hv => { h with externalDocs := hv }
    · exact List.forall_mem_nil _
  exact Record.stored rfl (by decide) hmade (fun _ _ => {}) hfields
    (.extensions (·.extensions) fun h ht => { h with extensions := ht })

end Tag

namespace OAuthFlow

structure Storable (n : Nat) (f : OAuthFlow) : Prop where
  scopes : Rows Always n f.scopes
  extensions : Rest.Beside form.names Json.Clean n f.extensions := by exact .empty

theorem stored : codec.Stored limit 2 (Deeper Storable) id := by
  have hmade : form.Assembled := by constructor <;> simp [form]
  have hfields : ∀ f ∈ form.fields, f.Law (limit - 1) 1 Storable id {} := by
    simp only [form, List.forall_mem_cons]
    and_intros
    any_goals exact .free (.optional stored_text) fun h => { h with }
    · exact .of_cell (.always (Codec.stored_rows stored_text.toReturns).toReturns) (·.scopes)
        fun h hv => { h with scopes := hv }
    · exact List.forall_mem_nil _
  exact Record.stored rfl (by decide) hmade (fun _ hn => { scopes := .empty hn }) hfields
    (.extensions (·.extensions) fun h ht => { h with extensions := ht })

end OAuthFlow

namespace OAuthFlows

structure Storable (n : Nat) (f : OAuthFlows) : Prop where
  implicit : ∀ v ∈ f.implicit, Deeper OAuthFlow.Storable n v := by rintro _ ⟨⟩
  password : ∀ v ∈ f.password, Deeper OAuthFlow.Storable n v := by rintro _ ⟨⟩
  clientCredentials : ∀ v ∈ f.clientCredentials, Deeper OAuthFlow.Storable n v := by rintro _ ⟨⟩
  authorizationCode : ∀ v ∈ f.authorizationCode, Deeper OAuthFlow.Storable n v := by rintro _ ⟨⟩
  extensions : Rest.Beside form.names Json.Clean n f.extensions := by exact .empty

theorem stored : codec.Stored limit 3 (Deeper Storable) id := by
  have hmade : form.Assembled := by constructor <;> simp [form]
  have hfields : ∀ f ∈ form.fields, f.Law (limit - 1) 2 Storable id {} := by
    simp only [form, List.forall_mem_cons]
    and_intros
    · exact .of_cell (.optional OAuthFlow.stored) (·.implicit) fun h hv => { h with implicit := hv }
    · exact .of_cell (.optional OAuthFlow.stored) (·.password) fun h hv => { h with password := hv }
    · exact .of_cell (.optional OAuthFlow.stored) (·.clientCredentials)
        fun h hv => { h with clientCredentials := hv }
    · exact .of_cell (.optional OAuthFlow.stored) (·.authorizationCode)
        fun h hv => { h with authorizationCode := hv }
    · exact List.forall_mem_nil _
  exact Record.stored rfl (by decide) hmade (fun _ _ => {}) hfields
    (.extensions (·.extensions) fun h ht => { h with extensions := ht })

end OAuthFlows

namespace SecurityScheme

structure Storable (n : Nat) (s : SecurityScheme) : Prop where
  flows : ∀ v ∈ s.flows, Deeper OAuthFlows.Storable n v := by rintro _ ⟨⟩
  extensions : Rest.Beside form.names Json.Clean n s.extensions := by exact .empty

theorem stored : codec.Stored limit 4 (Deeper Storable) id := by
  have hmade : form.Assembled := by constructor <;> simp [form]
  have hfields : ∀ f ∈ form.fields, f.Law (limit - 1) 3 Storable id {} := by
    simp only [form, List.forall_mem_cons]
    and_intros
    any_goals exact .free (.optional stored_text) fun h => { h with }
    · exact .free (.optional SecuritySchemeType.stored) fun h => { h with }
    · exact .free (.optional KeyLocation.stored) fun h => { h with }
    · exact .of_cell (.optional OAuthFlows.stored) (·.flows) fun h hv => { h with flows := hv }
    · exact List.forall_mem_nil _
  exact Record.stored rfl (by decide) hmade (fun _ _ => {}) hfields
    (.extensions (·.extensions) fun h ht => { h with extensions := ht })

end SecurityScheme

namespace Components

def undesignated (c : Components) : Components :=
  { c with callbacks := c.callbacks.mapValues Callback.undesignated }

structure Storable (D : Option String → Prop) (n : Nat) (c : Components) : Prop where
  schemas : Tabled (Deeper Schema.Storable) n c.schemas := by exact .empty
  responses : Tabled (Deeper Response.Storable) n c.responses := by exact .empty
  parameters : Tabled (Deeper Parameter.Storable) n c.parameters := by exact .empty
  examples : Tabled (Deeper Example.Storable) n c.examples := by exact .empty
  requestBodies : Tabled (Deeper RequestBody.Storable) n c.requestBodies := by exact .empty
  headers : Tabled (Deeper Header.Storable) n c.headers := by exact .empty
  securitySchemes : Tabled (Deeper SecurityScheme.Storable) n c.securitySchemes := by exact .empty
  links : Tabled (Deeper Link.Storable) n c.links := by exact .empty
  callbacks : Tabled (Deeper (Callback.Storable D)) n c.callbacks := by exact .empty
  extensions : Rest.Beside form.names Json.Clean n c.extensions := by exact .empty

theorem stored {D : Option String → Prop} (hD : D none) :
    codec.Stored limit 6 (Deeper (Storable D)) undesignated := by
  have hmade : form.Assembled := by constructor <;> simp [form]
  have hfields : ∀ f ∈ form.fields, f.Law (limit - 1) 5 (Storable D) undesignated {} := by
    simp only [form, List.forall_mem_cons]
    and_intros
    · exact .of_cell (.table Schema.stored.toReturns) (·.schemas)
        fun h hv => { h with schemas := hv }
    · exact .of_cell (.table Response.stored.toReturns) (·.responses)
        fun h hv => { h with responses := hv }
    · exact .of_cell (.table Parameter.stored.toReturns) (·.parameters)
        fun h hv => { h with parameters := hv }
    · exact .of_cell (.table Example.stored.toReturns) (·.examples)
        fun h hv => { h with examples := hv }
    · exact .of_cell (.table RequestBody.stored.toReturns) (·.requestBodies)
        fun h hv => { h with requestBodies := hv }
    · exact .of_cell (.table Header.stored.toReturns) (·.headers)
        fun h hv => { h with headers := hv }
    · exact .of_cell (.table SecurityScheme.stored.toReturns) (·.securitySchemes)
        fun h hv => { h with securitySchemes := hv }
    · exact .of_cell (.table Link.stored.toReturns) (·.links) fun h hv => { h with links := hv }
    · exact .of_cell (.tableAs (Callback.stored hD).toReturns) (·.callbacks)
        fun h hv => { h with callbacks := hv }
    · exact List.forall_mem_nil _
  exact Record.stored rfl (by decide) hmade (fun _ _ => {}) hfields
    (.extensions (·.extensions) fun h ht => { h with extensions := ht })

end Components

namespace OpenApi

def undesignated (d : OpenApi) : OpenApi :=
  { d with
    paths := d.paths.mapValues PathItem.undesignated
    components := d.components.map Components.undesignated }

structure StorableWith (D : Option String → Prop) (n : Nat) (d : OpenApi) : Prop where
  info : ∀ v ∈ d.info, Deeper Info.Storable n v := by rintro _ ⟨⟩
  servers : Listed (Deeper Server.Storable) n d.servers := by exact .nil
  paths : Tabled (Deeper (PathItem.Storable D)) n d.paths := by exact .empty
  components : ∀ v ∈ d.components, Deeper (Components.Storable D) n v := by rintro _ ⟨⟩
  security : Listed (Rows (Items Always)) n d.security := by exact .nil
  tags : Listed (Deeper Tag.Storable) n d.tags := by exact .nil
  externalDocs : ∀ v ∈ d.externalDocs, Deeper ExternalDocs.Storable n v := by rintro _ ⟨⟩
  extensions : Rest.Beside form.names Json.Clean n d.extensions := by exact .empty

theorem stored {D : Option String → Prop} (hD : D none) :
    codec.Stored limit 7 (Deeper (StorableWith D)) undesignated := by
  have hmade : form.Assembled := by constructor <;> simp [form]
  have hfields : ∀ f ∈ form.fields, f.Law (limit - 1) 6 (StorableWith D) undesignated {} := by
    simp only [form, List.forall_mem_cons]
    and_intros
    · exact .free (.always stored_text.toReturns) fun h => { h with }
    · exact .of_cell (.optional Info.stored) (·.info) fun h hv => { h with info := hv }
    · exact .of_cell (.list Server.stored.toReturns) (·.servers)
        fun h hv => { h with servers := hv }
    · exact .of_cell (.tableAs (PathItem.stored hD).toReturns) (·.paths)
        fun h hv => { h with paths := hv }
    · exact .of_cell (.optionalAs (Components.stored hD)) (·.components)
        fun h hv => { h with components := hv }
    · exact .of_cell (.list SecurityRequirement.stored.toReturns) (·.security)
        fun h hv => { h with security := hv }
    · exact .of_cell (.list Tag.stored.toReturns) (·.tags) fun h hv => { h with tags := hv }
    · exact .of_cell (.optional ExternalDocs.stored) (·.externalDocs)
        fun h hv => { h with externalDocs := hv }
    · exact List.forall_mem_nil _
  exact Record.stored rfl (by decide) hmade (fun _ _ => {}) hfields
    (.extensions (·.extensions) fun h ht => { h with extensions := ht })

end OpenApi

end ApiDoc
