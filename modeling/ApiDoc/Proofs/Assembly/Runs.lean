import ApiDoc.Proofs.Assembly.OperationIds
import ApiDoc.Proofs.Pruning.Survivors

/-!
# Runs of an assembly

What is asked of a draft one after the other, each whether or not what was asked
before has failed, and the ids that the handlers are given on the way. Every id that
is given out is new: it is no id of the operations under the paths of the base
document, and it is given out once.
-/

set_option autoImplicit false

namespace ApiDoc.Assembly

inductive Act where
  | define (n : DefinitionNote)
  | secure (n : SecuritySchemeNote)
  | add (call : Call)

def Act.step (a : Assembly) : Act → Step Unit
  | .define n => applyDefinition n
  | .secure n => addSecurityScheme n
  | .add call => a.addEndpoint call.1 call.2

def afterAct (a : Assembly) (d : Draft) (act : Act) : Draft := ((act.step a).outcome d).2

def afterActs (a : Assembly) (d : Draft) (acts : List Act) : Draft := acts.foldl a.afterAct d

/-! ### The ids that are given out -/

def assigned? (a : Assembly) (basePath : Option String) (e : Endpoint) (h : Handler)
    (d : Draft) : Option String :=
  (slotOf? basePath e h).map fun slot => claimedId d (a.candidate e h slot)

def assigned (a : Assembly) (basePath : Option String) (e : Endpoint) :
    List Handler → Draft → List String
  | [], _ => []
  | h :: hs, d => (a.assigned? basePath e h d).toList ++
    match (a.addHandler basePath e h).outcome d with
    | (.ok _, d') => assigned a basePath e hs d'
    | (.error _, _) => []

def assignedBy (a : Assembly) (d : Draft) : Act → List String
  | .add call =>
    match (defineTags call.2.tags).outcome d with
    | (.ok _, d') => a.assigned call.1 call.2 call.2.handlers d'
    | (.error _, _) => []
  | .define _ | .secure _ => []

def assignedByAll (a : Assembly) : Draft → List Act → List String
  | _, [] => []
  | d, act :: acts => a.assignedBy d act ++ assignedByAll a (a.afterAct d act) acts

structure Issued (base : OpenApi) (ids : List String) (d : Draft) : Prop where
  reserved : ∀ id ∈ base.operationIds, id ∈ d.ids.used
  used : ∀ id ∈ ids, id ∈ d.ids.used
  apart : ∀ id ∈ ids, id ∉ base.operationIds
  distinct : ids.Nodup
  borne : ∀ slot, d.document.slot? slot = base.slot? slot ∨
    ∃ o, d.document.slot? slot = some o ∧ ∃ id ∈ ids, o.operationId = some id

namespace Issued

variable {base : OpenApi} {ids : List String} {d d' : Draft}

theorem congr {other : List String} (h : Issued base ids d) (hp : ids.Perm other) :
    Issued base other d where
  reserved := h.reserved
  used id hid := h.used id (hp.mem_iff.mpr hid)
  apart id hid := h.apart id (hp.mem_iff.mpr hid)
  distinct := hp.nodup_iff.mp h.distinct
  borne slot := by
    rcases h.borne slot with hb | ⟨o, ho, id, hid, hoid⟩
    · exact Or.inl hb
    · exact Or.inr ⟨o, ho, id, hp.mem_iff.mp hid, hoid⟩

theorem frame (h : Issued base ids d) (hf : Frame d d') : Issued base ids d' where
  reserved := by rw [hf.ids]; exact h.reserved
  used := by rw [hf.ids]; exact h.used
  apart := h.apart
  distinct := h.distinct
  borne slot := by
    have hslot : d'.document.slot? slot = d.document.slot? slot := by
      rw [OpenApi.slot?, OpenApi.slot?, hf.paths]
    rw [hslot]
    exact h.borne slot

/-- The id that a candidate gets was never used before. -/
theorem claimed (h : Issued base ids d) (candidate : String) :
    Issued base (claimedId d candidate :: ids) (claimed d candidate) := by
  have hfresh : claimedId d candidate ∉ d.ids.used := Naming.fresh_not_mem _ _
  constructor
  case reserved => exact fun id hid => List.mem_cons_of_mem _ (h.reserved id hid)
  case used =>
    intro id hid
    rcases List.mem_cons.mp hid with rfl | hid
    · exact List.mem_cons_self
    · exact List.mem_cons_of_mem _ (h.used id hid)
  case apart =>
    intro id hid
    rcases List.mem_cons.mp hid with rfl | hid
    · exact fun hb => hfresh (h.reserved _ hb)
    · exact h.apart id hid
  case distinct => exact List.nodup_cons.mpr ⟨fun hid => hfresh (h.used _ hid), h.distinct⟩
  case borne =>
    intro slot
    rcases h.borne slot with hb | ⟨o, ho, id, hid, hoid⟩
    · exact Or.inl hb
    · exact Or.inr ⟨o, ho, id, List.mem_cons_of_mem _ hid, hoid⟩

theorem placed (h : Issued base ids d) (a : Assembly) (slot : Slot) {o : Operation} {id : String}
    (ho : o.operationId = some id) (hid : id ∈ ids) :
    Issued base ids { d with document := a.place slot.1 slot.2 o d.document } where
  reserved := h.reserved
  used := h.used
  apart := h.apart
  distinct := h.distinct
  borne other := by
    by_cases he : other = slot
    · rw [he]
      exact Or.inr ⟨o, a.slot?_place_self _ _ _ _, id, hid, ho⟩
    · rw [a.slot?_place_ne _ _ _ _ he]
      exact h.borne other

end Issued

variable {base : OpenApi} {ids : List String}

theorem issued_begin (base : OpenApi) : Issued base [] (begin base) where
  reserved _ := mem_used_begin
  used := List.forall_mem_nil _
  apart := List.forall_mem_nil _
  distinct := List.nodup_nil
  borne _ := Or.inl rfl

theorem issued_addHandler (a : Assembly) (basePath : Option String) (e : Endpoint) (h : Handler)
    {d : Draft} (hd : Issued base ids d) :
    Issued base ((a.assigned? basePath e h d).toList ++ ids)
      ((a.addHandler basePath e h).outcome d).2 := by
  cases ho : (a.addHandler basePath e h).outcome d with
  | mk r d' =>
    unfold assigned?
    cases handlerStep_of_outcome ho with
    | passed hs =>
      rw [hs]
      exact hd
    | failed hs hdesc =>
      rw [hs]
      exact (hd.claimed _).frame (frame_described hdesc)
    | filled hs hdesc =>
      rw [hs]
      have hb := (hd.claimed _).frame (frame_described hdesc)
      exact hb.placed a _ (operationId_described hdesc) List.mem_cons_self

theorem issued_addHandlers (a : Assembly) (basePath : Option String) (e : Endpoint)
    (hs : List Handler) {ids : List String} {d : Draft} (hd : Issued base ids d) :
    Issued base (a.assigned basePath e hs d ++ ids)
      ((a.addHandlers basePath e hs).outcome d).2 := by
  induction hs generalizing ids d with
  | nil => exact hd
  | cons h hs ih =>
    have hone := issued_addHandler a basePath e h hd
    unfold assigned addHandlers
    cases ho : (a.addHandler basePath e h).outcome d with
    | mk r d' =>
      rw [ho] at hone
      cases r with
      | error f =>
        rw [ExceptT.outcome_bind_error ho]
        simpa using hone
      | ok _ =>
        rw [ExceptT.outcome_bind_ok ho]
        apply (ih hone).congr
        rw [← List.append_assoc]
        exact List.perm_append_comm.append_right ids

theorem issued_afterAct (a : Assembly) (act : Act) {d : Draft} (hd : Issued base ids d) :
    Issued base (a.assignedBy d act ++ ids) (a.afterAct d act) := by
  cases act with
  | define n => exact hd.frame ((quiet_applyDefinition n).framed d)
  | secure n => exact hd.frame ((quiet_addSecurityScheme n).framed d)
  | add call =>
    have hq := (quiet_defineTags call.2.tags).framed d
    simp only [assignedBy, afterAct, Act.step, addEndpoint]
    cases ho : (defineTags call.2.tags).outcome d with
    | mk r d' =>
      rw [ho] at hq
      cases r with
      | error f =>
        rw [ExceptT.outcome_bind_error ho]
        exact hd.frame hq
      | ok _ =>
        rw [ExceptT.outcome_bind_ok ho]
        exact issued_addHandlers a call.1 call.2 call.2.handlers (hd.frame hq)

theorem issued_afterActs (a : Assembly) (acts : List Act) {ids : List String} {d : Draft}
    (hd : Issued base ids d) :
    Issued base (a.assignedByAll d acts ++ ids) (a.afterActs d acts) := by
  induction acts generalizing ids d with
  | nil => exact hd
  | cons act acts ih =>
    apply (ih (issued_afterAct a act hd)).congr
    rw [assignedByAll, ← List.append_assoc]
    exact List.perm_append_comm.append_right ids

/-- Whatever a run does and wherever it fails, no id is given out twice or belongs to
an operation under the paths of the base document, and whatever has come under the
paths bears an id that was given out. -/
theorem assigned_ids_new (a : Assembly) (base : OpenApi) (acts : List Act) :
    (∀ id ∈ a.assignedByAll (begin base) acts, id ∉ base.operationIds) ∧
    (a.assignedByAll (begin base) acts).Nodup ∧
    ∀ slot, (a.afterActs (begin base) acts).document.slot? slot = base.slot? slot ∨
      ∃ o, (a.afterActs (begin base) acts).document.slot? slot = some o ∧
        ∃ id ∈ a.assignedByAll (begin base) acts, o.operationId = some id := by
  have h := issued_afterActs a acts (issued_begin base)
  rw [List.append_nil] at h
  exact ⟨h.apart, h.distinct, h.borne⟩

section Counterexample

def notifiedBase : OpenApi where
  paths := .ofRows [("/orders", { slots := { post := some {
    operationId := some "order"
    callbacks := .ofRows [("shipped", { expressions := .ofRows [("url", { slots := {
      post := some { operationId := some "notify" } } })] })] } } })]
  components := some {
    callbacks := .ofRows [("billed", { expressions := .ofRows [("url", { slots := {
      put := some { operationId := some "bill" } } })] })] }

def notifiers : List Act := [.add (none, {
  handlers := [{ name := "notify", verb := some .get }, { name := "bill", verb := some .get },
    { name := "order", verb := some .get }] })]

/-- The ids of operations in callbacks are given out again. -/
theorem callback_ids_assigned :
    shallow.assignedByAll (begin notifiedBase) notifiers = ["notify", "bill", "order_1"] ∧
    notifiedBase.Holds (.operation { operationId := some "notify" }) ∧
    notifiedBase.Holds (.operation { operationId := some "bill" }) := by
  refine ⟨by decide +kernel, ?_, ?_⟩
  · refine ⟨_, OpenApi.mem_rows_path List.mem_cons_self, ?_⟩
    refine .child (Node.mem_rows_operation (m := .post) rfl) ?_
    refine .child (Node.mem_rows_callback List.mem_cons_self) ?_
    refine .child (Node.mem_rows_pathItem List.mem_cons_self) ?_
    exact .child (Node.mem_rows_operation (m := .post) rfl) (.self _)
  · refine ⟨_, OpenApi.mem_rows_callback rfl List.mem_cons_self, ?_⟩
    refine .child (Node.mem_rows_pathItem List.mem_cons_self) ?_
    exact .child (Node.mem_rows_operation (m := .put) rfl) (.self _)

end Counterexample

end ApiDoc.Assembly
