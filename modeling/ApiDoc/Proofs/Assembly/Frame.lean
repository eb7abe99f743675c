import ApiDoc.Assembly.Basic
import ApiDoc.Proofs.Outcome

/-!
# What steps leave alone

Paths, operation ids and component schemas are touched by few steps. All other
steps leave them as they are, also when they fail.
-/

set_option autoImplicit false

namespace ApiDoc.Assembly

open Inference (Gen)

structure Frame (d d' : Draft) : Prop where
  paths : d'.document.paths = d.document.paths
  schemas : d'.document.componentsOrNew.schemas = d.document.componentsOrNew.schemas
  ids : d'.ids = d.ids

theorem Frame.refl (d : Draft) : Frame d d := ⟨rfl, rfl, rfl⟩

theorem Frame.trans {d d' d'' : Draft} (h : Frame d d') (h' : Frame d' d'') : Frame d d'' :=
  ⟨h'.paths.trans h.paths, h'.schemas.trans h.schemas, h'.ids.trans h.ids⟩

namespace Step

variable {α β : Type}

def Framed (g : Step α) : Prop := ∀ d, Frame d (g.outcome d).2

def Quiet (g : Step α) : Prop := ∀ d, Frame d (g.outcome d).2 ∧ (g.outcome d).2.arena = d.arena

theorem Quiet.framed {g : Step α} (h : Quiet g) : Framed g := fun d => (h d).1

theorem Framed.bind {g : Step α} {k : α → Step β} (hg : Framed g) (hk : ∀ x, Framed (k x)) :
    Framed (g >>= k) := fun d =>
  ExceptT.outcome_bind_chain (R := Frame) (fun _ _ _ => Frame.trans) (hg d) fun x => hk x _

theorem Quiet.bind {g : Step α} {k : α → Step β} (hg : Quiet g) (hk : ∀ x, Quiet (k x)) :
    Quiet (g >>= k) := fun d =>
  ExceptT.outcome_bind_chain (R := fun d d' => Frame d d' ∧ d'.arena = d.arena)
    (fun _ _ _ h h' => ⟨h.1.trans h'.1, h'.2.trans h.2⟩) (hg d) fun x => hk x _

theorem quiet_pure (x : α) : Quiet (pure x : Step α) := fun d => ⟨Frame.refl d, rfl⟩

theorem quiet_check (e : Except Failure α) : Quiet (check e) := fun d => ⟨Frame.refl d, rfl⟩

theorem quiet_get : Quiet (get : Step Draft) := fun d => ⟨Frame.refl d, rfl⟩

theorem quiet_edit {f : OpenApi → OpenApi} (hp : ∀ doc, (f doc).paths = doc.paths)
    (hs : ∀ doc, (f doc).componentsOrNew.schemas = doc.componentsOrNew.schemas) :
    Quiet (edit f) := fun d => ⟨⟨hp d.document, hs d.document, rfl⟩, rfl⟩

theorem framed_gen (g : Gen α) : Framed (gen g) := fun _ => ⟨rfl, rfl, rfl⟩

/-- What is generated is generated in the arena of the draft. -/
theorem outcome_gen_eq {g : Gen α} {d d' : Draft} {r : Except Failure α}
    (h : (gen g).outcome d = (r, d')) :
    g.outcome d.arena = (r, d'.arena) ∧ d'.document = d.document := by
  cases h
  exact ⟨rfl, rfl⟩

end Step

open Step

theorem quiet_defineTag (tag : Option Tag) : Quiet (defineTag tag) := by
  cases tag with
  | none => exact quiet_pure ()
  | some tag =>
    have hadd : ∀ doc : OpenApi, (doc.addTag tag).paths = doc.paths ∧
        (doc.addTag tag).componentsOrNew = doc.componentsOrNew := fun doc => by
      unfold OpenApi.addTag
      split <;> exact ⟨rfl, rfl⟩
    exact quiet_edit (fun doc => (hadd doc).1) fun doc => by rw [(hadd doc).2]

theorem quiet_defineTags (notes : List TagNote) : Quiet (defineTags notes) := by
  induction notes with
  | nil => exact quiet_pure ()
  | cons n ns ih =>
    exact (quiet_check _).bind fun tag => (quiet_defineTag tag).bind fun _ => ih

/-! ### The document as a whole -/

theorem quiet_defineInfo (n : Option InfoNote) : Quiet (defineInfo n) := by
  refine quiet_get.bind fun d => ?_
  split
  · exact (quiet_check _).bind fun info => quiet_edit (fun _ => rfl) fun _ => rfl
  · exact quiet_pure ()

theorem quiet_defineServers (notes : List ServerNote) : Quiet (defineServers notes) := by
  induction notes with
  | nil => exact quiet_pure ()
  | cons n ns ih =>
    have hadd : ∀ (doc : OpenApi) (s : Server), (addServer doc s).paths = doc.paths ∧
        (addServer doc s).componentsOrNew = doc.componentsOrNew := fun doc s => by
      unfold addServer
      split <;> exact ⟨rfl, rfl⟩
    exact (quiet_check _).bind fun s => (quiet_edit (fun doc => (hadd doc s).1)
      fun doc => by rw [(hadd doc s).2]).bind fun _ => ih

theorem quiet_defineExtensions (notes : List ExtensionNote) : Quiet (defineExtensions notes) := by
  refine (quiet_check _).bind fun extensions => ?_
  exact quiet_edit (fun _ => rfl) fun _ => rfl

theorem quiet_applyDefinition (n : DefinitionNote) : Quiet (applyDefinition n) := by
  refine (quiet_defineInfo n.info).bind fun _ => (quiet_defineServers n.servers).bind fun _ =>
    (quiet_defineTags n.tags).bind fun _ => Quiet.bind ?_ fun _ => quiet_defineExtensions _
  exact quiet_edit (fun _ => rfl) fun _ => rfl

theorem quiet_addSecurityScheme (n : SecuritySchemeNote) : Quiet (addSecurityScheme n) := by
  refine (quiet_check _).bind fun scheme => ?_
  exact quiet_edit (fun _ => rfl) fun _ => rfl

theorem quiet_addSecuritySchemes (notes : List SecuritySchemeNote) :
    Quiet (addSecuritySchemes notes) := by
  induction notes with
  | nil => exact quiet_pure ()
  | cons n ns ih =>
    exact (quiet_addSecurityScheme n).bind fun _ => ih

/-! ### Operations -/

theorem quiet_mention (own : List TagNote) (name : String) : Quiet (mention own name) := by
  refine quiet_get.bind fun d => ?_
  split
  · exact quiet_defineTags _
  · exact quiet_pure ()

theorem quiet_resolveTag (own : List TagNote) (n : TagNote) : Quiet (resolveTag own n) := by
  refine (quiet_check _).bind fun tag => ?_
  cases tag with
  | some tag => exact (quiet_defineTag _).bind fun _ => quiet_pure _
  | none => exact (quiet_mention own _).bind fun _ => quiet_pure _

theorem quiet_resolveTags (own : List TagNote) (names : List String) (notes : List TagNote) :
    Quiet (resolveTags own names notes) := by
  induction notes generalizing names with
  | nil => exact quiet_pure names
  | cons n ns ih => exact (quiet_resolveTag own n).bind fun name => ih _

theorem quiet_operationTags (a : Assembly) (e : Endpoint) (h : Handler) (id : String) :
    Quiet (a.operationTags e h id) := by
  unfold operationTags
  split
  · exact quiet_pure _
  · exact quiet_resolveTags _ _ _

/-- What holds of sequences when it holds of their parts holds of describing an operation
when it holds of its tags and of all that is inferred for it. -/
theorem operation_induct {P : ∀ {α : Type}, Step α → Prop}
    (bind : ∀ {α β : Type} {g : Step α} {k : α → Step β}, P g → (∀ x, P (k x)) → P (g >>= k))
    (pure : ∀ {α : Type} (x : α), P (Pure.pure x : Step α))
    (check : ∀ {α : Type} (r : Except Failure α), P (check r))
    {a : Assembly} {e : Endpoint} {h : Handler} {id : String} (tags : P (a.operationTags e h id))
    (parameters : P (gen (parameters a.catalog a.infer h)))
    (body : P (gen (requestBody a.infer e h)))
    (responses : P (gen (responses a.catalog a.infer e h)))
    (callbacks : P (gen (a.callbacks h))) (n : OperationNote) : P (a.operation e h n id) :=
  bind (check _) fun _ => bind tags fun _ => bind (check _) fun _ => bind parameters fun _ =>
    bind body fun _ => bind responses fun _ => bind callbacks fun _ => pure _

theorem framed_operation (a : Assembly) (e : Endpoint) (h : Handler) (n : OperationNote)
    (id : String) : Framed (a.operation e h n id) :=
  operation_induct .bind (fun x => (quiet_pure x).framed) (fun r => (quiet_check r).framed)
    (a.quiet_operationTags e h id).framed (framed_gen _) (framed_gen _) (framed_gen _)
    (framed_gen _) n

end ApiDoc.Assembly
