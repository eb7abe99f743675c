import ApiDoc.Proofs.Assembly.References
import ApiDoc.Proofs.Assembly.Retained
import ApiDoc.Proofs.Assembly.Runs
import ApiDoc.Proofs.Inference.Later

/-!
# Endpoints that fail

An endpoint fails at its tags or at one of its handlers. Handlers before that one have
filled their slots, and the one that fails fills none: its operation would have been
the last thing to enter the document. What it has defined of tags stays, and so do
the components that were opened for it, behind those that were there.
-/

set_option autoImplicit false

namespace ApiDoc.Assembly

open Inference (Gen Arena Steps resolving stepping level_steps)

/-! ### The arena of a draft -/

namespace Step

variable {α β : Type}

def Stepping (g : Step α) : Prop := ∀ d, d.arena.Sound → Steps d.arena (g.outcome d).2.arena

theorem Stepping.bind {g : Step α} {k : α → Step β} (hg : Stepping g) (hk : ∀ x, Stepping (k x)) :
    Stepping (g >>= k) := fun d hd =>
  ExceptT.outcome_bind_chain (R := fun (d d' : Draft) => Steps d.arena d'.arena)
    (fun _ _ _ => Steps.trans) (hg d hd) fun x => hk x _ (hg d hd).2

theorem Quiet.stepping {g : Step α} (h : Quiet g) : Stepping g := by
  intro d hd
  rw [(h d).2]
  exact ⟨.refl _, hd⟩

theorem stepping_gen {g : Gen α} (h : stepping.rel g g) : Stepping (gen g) := fun d => h d.arena

end Step

open Step

variable {a : Assembly} {basePath : Option String} {e : Endpoint}

theorem stepping_operation (a : Assembly) (e : Endpoint) (h : Handler) (n : OperationNote)
    (id : String) : Stepping (a.operation e h n id) := by
  have hi : ∀ t, True → (stepping.over (resolving fun _ => True)).rel
      ((resolving fun _ => True).Describes t) (a.infer t) (a.infer t) :=
    (level_steps a.catalog a.depth).schemaOf
  have hall := admissible_of_everything fun _ => trivial
  exact operation_induct .bind (fun x => (quiet_pure x).stepping)
    (fun r => (quiet_check r).stepping) (a.quiet_operationTags e h id).stepping
    (stepping_gen (related_parameters hi (hall _) (hall _)))
    (stepping_gen (related_requestBody hi e (hall _)))
    (stepping_gen (related_responses hi a.catalog (hall _) (hall _)))
    (stepping_gen (related_callbacks hi (hall _))) n

theorem steps_described {h : Handler} {slot : Slot} {d b : Draft} {r : Except Failure Operation}
    (hd : d.arena.Sound) (ho : a.described e h slot d = (r, b)) : Steps d.arena b.arena := by
  have hsteps := stepping_operation a e h (h.operation.getD {})
    (claimedId d (a.candidate e h slot)) (claimed d (a.candidate e h slot)) hd
  change Steps _ (a.described e h slot d).2.arena at hsteps
  rwa [ho] at hsteps

theorem stepping_addHandler (h : Handler) : Stepping (a.addHandler basePath e h) := by
  intro d hd
  cases ho : (a.addHandler basePath e h).outcome d with
  | mk r d' =>
    cases handlerStep_of_outcome ho with
    | passed _ => exact ⟨.refl _, hd⟩
    | filled _ hdesc =>
      have hdescribed := steps_described hd hdesc
      exact hdescribed
    | failed _ hdesc => exact steps_described hd hdesc

theorem stepping_addHandlers (hs : List Handler) : Stepping (a.addHandlers basePath e hs) := by
  induction hs with
  | nil => exact (quiet_pure ()).stepping
  | cons h hs ih => exact (stepping_addHandler h).bind fun _ => ih

theorem stepping_addEndpoint (a : Assembly) (basePath : Option String) (e : Endpoint) :
    Stepping (a.addEndpoint basePath e) :=
  (quiet_defineTags e.tags).stepping.bind fun _ => stepping_addHandlers e.handlers

theorem stepping_act (a : Assembly) (act : Act) : Stepping (act.step a) := by
  cases act with
  | define n => exact (quiet_applyDefinition n).stepping
  | secure n => exact (quiet_addSecurityScheme n).stepping
  | add call => exact stepping_addEndpoint a call.1 call.2

theorem sound_afterActs (a : Assembly) (acts : List Act) {d : Draft} (hd : d.arena.Sound) :
    (a.afterActs d acts).arena.Sound := by
  induction acts generalizing d with
  | nil => exact hd
  | cons act acts ih => exact ih (stepping_act a act d hd).2

/-! ### The document of a draft -/

structure Extends (d d' : OpenApi) : Prop where
  rest : d' = { d with paths := d'.paths, tags := d'.tags }
  tags : d.tags <+: d'.tags

namespace Extends

theorem refl (d : OpenApi) : Extends d d := ⟨rfl, List.prefix_refl _⟩

theorem trans (d d' d'' : OpenApi) (h : Extends d d') (h' : Extends d' d'') : Extends d d'' where
  rest := by rw [h'.rest, h.rest]
  tags := h.tags.trans h'.tags

theorem addTag (d : OpenApi) (t : Tag) : Extends d (d.addTag t) := by
  unfold OpenApi.addTag
  split
  · exact .refl d
  · exact ⟨rfl, List.prefix_append _ _⟩

theorem place (a : Assembly) (slot : Slot) (o : Operation) (d : OpenApi) :
    Extends d (a.place slot.1 slot.2 o d) := ⟨rfl, List.prefix_refl _⟩

end Extends

theorem placesBy_extends (h : Handler) : PlacesBy Extends a basePath e h :=
  fun _ _ => Extends.place a _ _ _

/-! ### Where an endpoint fails -/

/-- Handlers fail at one of them, once those before it have been added. -/
theorem addHandlers_eq_error {hs : List Handler} {d d' : Draft} {f : Failure}
    (h : (a.addHandlers basePath e hs).outcome d = (.error f, d')) :
    ∃ k handler d₁, hs[k]? = some handler ∧
      (a.addHandlers basePath e (hs.take k)).outcome d = (.ok (), d₁) ∧
      (a.addHandler basePath e handler).outcome d₁ = (.error f, d') := by
  induction hs generalizing d with
  | nil => cases h
  | cons handler hs ih =>
    unfold addHandlers at h
    cases hone : (a.addHandler basePath e handler).outcome d with
    | mk r d₀ =>
      cases r with
      | error f' =>
        rw [ExceptT.outcome_bind_error hone] at h
        cases h
        exact ⟨0, handler, d, rfl, rfl, hone⟩
      | ok u =>
        rw [ExceptT.outcome_bind_ok hone] at h
        obtain ⟨k, handler', d₁, hk, hbefore, hfails⟩ := ih h
        exact ⟨k + 1, handler', d₁, hk, (ExceptT.outcome_bind_ok hone).trans hbefore, hfails⟩

theorem addHandler_failed_paths {h : Handler} {d d' : Draft} {f : Failure}
    (ho : (a.addHandler basePath e h).outcome d = (.error f, d')) :
    d'.document.paths = d.document.paths := by
  cases handlerStep_of_outcome ho with
  | failed _ hdesc => exact (frame_described hdesc).paths

/-- An endpoint that fails has left the paths as its handlers before the one that fails
make them, and has left all else as it was, up to tags and components that are new. -/
theorem failed_endpoint_keeps (a : Assembly) (base : OpenApi) (acts : List Act)
    (basePath : Option String) (e : Endpoint) {f : Failure} {d d' : Draft}
    (hd : a.afterActs (begin base) acts = d)
    (h : (a.addEndpoint basePath e).outcome d = (.error f, d')) :
    (((defineTags e.tags).outcome d = (.error f, d') ∧ d'.document.paths = d.document.paths) ∨
      ∃ k handler before, e.handlers[k]? = some handler ∧
        (a.addEndpoint basePath { e with handlers := e.handlers.take k }).outcome d =
          (.ok (), before) ∧
        (a.addHandler basePath e handler).outcome before = (.error f, d') ∧
        d'.document.paths = before.document.paths) ∧
    Extends d.document d'.document ∧ d.arena.Continues d'.arena := by
  have hsound : d.arena.Sound := hd ▸ a.sound_afterActs acts Arena.sound_empty
  have hdocument : Extends d.document ((a.addEndpoint basePath e).outcome d).2.document :=
    moves_addEndpoint Extends.refl Extends.trans Extends.addTag
      (fun h _ => placesBy_extends h) d
  have harena := stepping_addEndpoint a basePath e d hsound
  rw [h] at hdocument harena
  refine ⟨?_, hdocument, harena.1.continues hsound harena.2⟩
  unfold addEndpoint at h
  cases htags : (defineTags e.tags).outcome d with
  | mk r d₀ =>
    cases r with
    | error f' =>
      rw [ExceptT.outcome_bind_error htags] at h
      cases h
      have hq := quiet_defineTags e.tags d
      rw [htags] at hq
      exact Or.inl ⟨rfl, hq.1.paths⟩
    | ok u =>
      rw [ExceptT.outcome_bind_ok htags] at h
      obtain ⟨k, handler, before, hk, hbefore, hfails⟩ := addHandlers_eq_error h
      refine Or.inr ⟨k, handler, before, hk, ?_, hfails, addHandler_failed_paths hfails⟩
      refine (ExceptT.outcome_bind_ok htags).trans ?_
      rw [addHandlers_beside]
      exact hbefore

section Witness

open Inference (pageCatalog itemType brokenType)

def itemPages : Assembly := { catalog := pageCatalog, depth := 10 }

def pageActs : List Act := [.add (none, {
  path := some "pages"
  handlers := [{ name := "page", verb := some .get, returnType := some itemType }] })]

def brokenEndpoint : Endpoint where
  path := some "items"
  tags := [{ name := some "items", description := some "All items" }]
  handlers := [{ name := "add", verb := some .post },
    { name := "mend", verb := some .put, returnType := some brokenType },
    { name := "remove", verb := some .delete }]

def pageDraft : Draft := itemPages.afterActs (begin itemsBase) pageActs

def brokenDraft : Draft := ((itemPages.addEndpoint none brokenEndpoint).outcome pageDraft).2

theorem failed_endpoint_keeps_items :
    brokenDraft.document.operationIds = ["list", "add", "page"] ∧
    pageDraft.arena.names = ["Item", "PageItem"] ∧
    brokenDraft.arena.names = ["Item", "PageItem", "Broken"] ∧
    ∃ f, (itemPages.addEndpoint none brokenEndpoint).outcome pageDraft = (.error f, brokenDraft) ∧
      (((defineTags brokenEndpoint.tags).outcome pageDraft = (.error f, brokenDraft) ∧
          brokenDraft.document.paths = pageDraft.document.paths) ∨
        ∃ k handler before, brokenEndpoint.handlers[k]? = some handler ∧
          (itemPages.addEndpoint none { brokenEndpoint with
            handlers := brokenEndpoint.handlers.take k }).outcome pageDraft = (.ok (), before) ∧
          (itemPages.addHandler none brokenEndpoint handler).outcome before =
            (.error f, brokenDraft) ∧
          brokenDraft.document.paths = before.document.paths) ∧
      Extends pageDraft.document brokenDraft.document ∧
      pageDraft.arena.Continues brokenDraft.arena := by
  have hfails : ((itemPages.addEndpoint none brokenEndpoint).outcome
      pageDraft).1.toOption.isNone = true := by decide +kernel
  refine ⟨by decide +kernel, by decide +kernel, by decide +kernel, ?_⟩
  cases hr : ((itemPages.addEndpoint none brokenEndpoint).outcome pageDraft).1 with
  | ok u =>
    rw [hr] at hfails
    cases hfails
  | error f =>
    have hout : (itemPages.addEndpoint none brokenEndpoint).outcome pageDraft =
        (.error f, brokenDraft) := by
      rw [brokenDraft, ← hr]
    exact ⟨f, hout, failed_endpoint_keeps itemPages itemsBase pageActs none brokenEndpoint
      rfl hout⟩

end Witness

end ApiDoc.Assembly
