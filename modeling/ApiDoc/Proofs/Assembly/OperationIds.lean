import ApiDoc.Proofs.Assembly.Handlers
import ApiDoc.Proofs.FreshName

/-!
# Operation ids

No two operations of a draft have one id, whatever the handlers and the strategy
ask for, and whether or not handlers fail on the way.
-/

set_option autoImplicit false

namespace ApiDoc.Assembly

def Numbered (base : OpenApi) (o : Operation) : Prop :=
  ∃ id, o.operationId = some id ∧ id ∉ base.operationIds

structure Identified (base : OpenApi) (slots : List Slot) (d : Draft) : Prop where
  distinct : d.document.operationIds.Nodup
  used : ∀ id ∈ d.document.operationIds, id ∈ d.ids.used
  reserved : ∀ id ∈ base.operationIds, id ∈ d.ids.used
  filled : Filled (Numbered base) base slots d.document

variable {base : OpenApi} {slots : List Slot}

theorem ids_begin (base : OpenApi) :
    (begin base).ids = base.operationIds.foldl OperationIds.reserve {} := by
  rw [OpenApi.operationIds, List.foldl_filterMap]
  simp only [begin]
  congr 1
  funext ids row
  cases row.2.2.operationId <;> rfl

theorem mem_used_foldl {id : String} (names : List String) {ids : OperationIds}
    (h : id ∈ ids.used ∨ id ∈ names) : id ∈ (names.foldl OperationIds.reserve ids).used := by
  induction names generalizing ids with
  | nil => simpa using h
  | cons name names ih =>
    apply ih
    simp only [OperationIds.reserve, List.mem_cons]
    rcases h with hu | hn
    · exact Or.inl (Or.inr hu)
    · exact (List.mem_cons.mp hn).imp_left Or.inl

theorem mem_used_begin {id : String} (h : id ∈ base.operationIds) : id ∈ (begin base).ids.used := by
  rw [ids_begin]
  exact mem_used_foldl base.operationIds (Or.inr h)

theorem identified_begin (h : base.operationIds.Nodup) : Identified base [] (begin base) where
  distinct := h
  used := fun _ => mem_used_begin
  reserved := fun _ => mem_used_begin
  filled := Filled.start

namespace Identified

variable {d d' : Draft}

theorem frame (h : Identified base slots d) (hf : Frame d d') : Identified base slots d' := by
  have hids : d'.document.operationIds = d.document.operationIds := by
    rw [OpenApi.operationIds_eq, OpenApi.operationIds_eq, hf.paths]
  constructor
  case distinct => rw [hids]; exact h.distinct
  case used => rw [hids, hf.ids]; exact h.used
  case reserved => rw [hf.ids]; exact h.reserved
  case filled => exact h.filled.of_paths hf.paths

/-- An id stays used once it is claimed. -/
theorem claimed (h : Identified base slots d) (candidate : String) :
    Identified base slots (claimed d candidate) where
  distinct := h.distinct
  used := fun id hid => List.mem_cons_of_mem _ (h.used id hid)
  reserved := fun id hid => List.mem_cons_of_mem _ (h.reserved id hid)
  filled := h.filled

theorem placed (h : Identified base slots d) (a : Assembly) (slot : Slot) {o : Operation}
    {id : String} (ho : o.operationId = some id) (hu : id ∈ d.ids.used)
    (hd : id ∉ d.document.operationIds) (hb : id ∉ base.operationIds) :
    Identified base (slot :: slots)
      { d with document := a.place slot.1 slot.2 o d.document } := by
  have hr := a.operationIds_place slot.1 slot.2 o d.document ho
  constructor
  case distinct => exact hr.nodup h.distinct hd
  case used =>
    intro other hm
    rcases hr.mem hm with rfl | hm
    · exact hu
    · exact h.used other hm
  case reserved => exact h.reserved
  case filled => exact h.filled.placed a slot ⟨id, ho, hb⟩

end Identified

/-! ### One handler after the other -/

theorem identified_addHandler {a : Assembly} {basePath : Option String} {e : Endpoint} {h : Handler}
    {d d' : Draft} {r : Except Failure Unit} (hd : Identified base slots d)
    (ho : (a.addHandler basePath e h).outcome d = (r, d')) :
    (∃ f, r = .error f ∧ Identified base slots d') ∨
      r = .ok () ∧ Identified base ((slotOf? basePath e h).toList ++ slots) d' := by
  cases handlerStep_of_outcome ho with
  | passed hs =>
    rw [hs]
    exact Or.inr ⟨rfl, hd⟩
  | failed hs hdesc =>
    exact Or.inl ⟨_, rfl, (hd.claimed _).frame (frame_described hdesc)⟩
  | @filled slot o b hs hdesc =>
    rw [hs]
    -- the claimed id was unused before, so neither document has it
    have hfresh : claimedId d (a.candidate e h slot) ∉ d.ids.used := Naming.fresh_not_mem _ _
    have hframe := frame_described hdesc
    have hb := (hd.claimed (a.candidate e h slot)).frame hframe
    have hids : b.document.operationIds = d.document.operationIds := by
      rw [OpenApi.operationIds_eq, OpenApi.operationIds_eq, hframe.paths]
      rfl
    refine Or.inr ⟨rfl, hb.placed a slot (operationId_described hdesc) ?_ ?_ ?_⟩
    · rw [hframe.ids]
      exact List.mem_cons_self
    · rw [hids]
      exact fun hm => hfresh (hd.used _ hm)
    · exact fun hm => hfresh (hd.reserved _ hm)

theorem Identified.congr {other : List Slot} {d : Draft} (h : Identified base slots d)
    (hs : ∀ slot, slot ∈ slots ↔ slot ∈ other) : Identified base other d where
  distinct := h.distinct
  used := h.used
  reserved := h.reserved
  filled := h.filled.congr hs

theorem identified_addHandlers (a : Assembly) (basePath : Option String) (e : Endpoint)
    (hs : List Handler) {slots : List Slot} {d : Draft} (hd : Identified base slots d) :
    Identified base (a.filled basePath e hs d ++ slots)
      ((a.addHandlers basePath e hs).outcome d).2 := by
  induction hs generalizing slots d with
  | nil => exact hd
  | cons h hs ih =>
    unfold filled addHandlers
    cases ho : (a.addHandler basePath e h).outcome d with
    | mk r d' =>
      rcases identified_addHandler hd ho with ⟨f, rfl, hd'⟩ | ⟨rfl, hd'⟩
      · rw [ExceptT.outcome_bind_error ho]
        exact hd'
      · rw [ExceptT.outcome_bind_ok ho]
        apply (ih hd').congr
        intro slot
        simp only [List.mem_append]
        exact or_left_comm.trans or_assoc.symm

theorem identified_afterCall (a : Assembly) (call : Call) {d : Draft}
    (hd : Identified base slots d) :
    Identified base (a.filledBy d call ++ slots) (a.afterCall d call) := by
  unfold filledBy afterCall addEndpoint
  have hq := (quiet_defineTags call.2.tags).framed d
  cases ho : (defineTags call.2.tags).outcome d with
  | mk r d' =>
    rw [ho] at hq
    cases r with
    | error f =>
      rw [ExceptT.outcome_bind_error ho]
      exact hd.frame hq
    | ok _ =>
      rw [ExceptT.outcome_bind_ok ho]
      exact identified_addHandlers a call.1 call.2 call.2.handlers (hd.frame hq)

theorem identified_afterCalls (a : Assembly) (calls : List Call) {slots : List Slot} {d : Draft}
    (hd : Identified base slots d) :
    Identified base (a.filledByAll d calls ++ slots) (a.afterCalls d calls) := by
  induction calls generalizing slots d with
  | nil => exact hd
  | cons call calls ih =>
    apply (ih (identified_afterCall a call hd)).congr
    intro slot
    simp only [filledByAll, List.mem_append]
    exact or_left_comm.trans or_assoc.symm

/-- The ids of a document stay distinct; every operation that was put into it has
an id that is none of the base's, and every other slot is as it was. -/
theorem operation_ids_distinct (a : Assembly) (base : OpenApi) (hbase : base.operationIds.Nodup)
    (calls : List Call) :
    (a.afterCalls (begin base) calls).document.operationIds.Nodup ∧
    (∀ slot ∈ a.filledByAll (begin base) calls, ∃ o id,
      (a.afterCalls (begin base) calls).document.slot? slot = some o ∧
        o.operationId = some id ∧ id ∉ base.operationIds) ∧
    ∀ slot, slot ∉ a.filledByAll (begin base) calls →
      (a.afterCalls (begin base) calls).document.slot? slot = base.slot? slot := by
  have h := identified_afterCalls a calls (identified_begin hbase)
  rw [List.append_nil] at h
  refine ⟨h.distinct, fun slot hs => ?_, h.filled.kept⟩
  obtain ⟨o, ho, id, hid, hb⟩ := h.filled.holds slot hs
  exact ⟨o, id, ho, hid, hb⟩

section Witness

def itemsBase : OpenApi where
  paths := Ordered.ofRows [("/items", { slots := { get := some { operationId := some "list" } } })]

def shallow : Assembly := { depth := 0 }

/-- The listing is replaced; the handler behind it claims an id and fails, and
the last one asks for the id that was claimed in vain. -/
def itemCalls : List Call := [
  (none, { path := some "items"
           handlers := [{ name := "list", verb := some .get },
             { name := "list", verb := some .post, returnType := some ⟨"Item", []⟩ }] }),
  (some "items", { handlers := [{ name := "list_2", verb := some .put }] })]

theorem operation_ids_distinct_items :
    (shallow.afterCalls (begin itemsBase) itemCalls).document.operationIds =
      ["list_1", "list_2_1"] ∧
    itemsBase.operationIds.Nodup ∧
    (shallow.afterCalls (begin itemsBase) itemCalls).document.operationIds.Nodup ∧
    (∀ slot ∈ shallow.filledByAll (begin itemsBase) itemCalls, ∃ o id,
      (shallow.afterCalls (begin itemsBase) itemCalls).document.slot? slot = some o ∧
        o.operationId = some id ∧ id ∉ itemsBase.operationIds) ∧
    ∀ slot, slot ∉ shallow.filledByAll (begin itemsBase) itemCalls →
      (shallow.afterCalls (begin itemsBase) itemCalls).document.slot? slot = itemsBase.slot? slot :=
  ⟨by decide, by decide, operation_ids_distinct shallow itemsBase (by decide) itemCalls⟩

end Witness

end ApiDoc.Assembly
