import ApiDoc.Proofs.Assembly.Frame
import ApiDoc.Proofs.Assembly.Slots

/-!
# Handlers

What the handler of an endpoint does to a draft: nothing when it is passed over,
else it claims an id, describes its operation and fills its slot. The id stays
claimed when the description fails.
-/

set_option autoImplicit false

namespace ApiDoc.Assembly

open Inference (Arena)
open Step

def slotOf? (basePath : Option String) (e : Endpoint) (h : Handler) : Option Slot :=
  match h.verb with
  | none => none
  | some verb => if (h.operation.getD {}).hidden then none else some (pathOf basePath e h, verb)

def candidate (a : Assembly) (e : Endpoint) (h : Handler) (slot : Slot) : String :=
  (h.operation.getD {}).operationId.getD (a.strategy e.name h.name slot.2 slot.1)

def claimed (d : Draft) (candidate : String) : Draft := { d with ids := (d.ids.claim candidate).2 }

def claimedId (d : Draft) (candidate : String) : String := (d.ids.claim candidate).1

variable {a : Assembly} {basePath : Option String} {e : Endpoint} {h : Handler}

def described (a : Assembly) (e : Endpoint) (h : Handler) (slot : Slot) (d : Draft) :
    Except Failure Operation × Draft :=
  (a.operation e h (h.operation.getD {}) (claimedId d (a.candidate e h slot))).outcome
    (claimed d (a.candidate e h slot))

theorem addHandler_passed (hs : slotOf? basePath e h = none) (d : Draft) :
    (a.addHandler basePath e h).outcome d = (.ok (), d) := by
  unfold slotOf? at hs
  unfold addHandler
  cases hv : h.verb with
  | none => rfl
  | some verb =>
    rw [hv] at hs
    by_cases hh : (h.operation.getD {}).hidden = true
    · simp only [hh, ↓reduceIte]
      rfl
    · simp [hh] at hs

theorem addHandler_filled {slot : Slot} (hs : slotOf? basePath e h = some slot) (d : Draft) :
    (a.addHandler basePath e h).outcome d =
      match a.described e h slot d with
      | (.ok o, b) => (.ok (), { b with document := a.place slot.1 slot.2 o b.document })
      | (.error f, b) => (.error f, b) := by
  unfold slotOf? at hs
  cases hv : h.verb with
  | none => simp [hv] at hs
  | some verb =>
    by_cases hh : (h.operation.getD {}).hidden = true
    · simp [hv, hh] at hs
    · have hslot : (pathOf basePath e h, verb) = slot := by simpa [hv, hh] using hs
      subst hslot
      have hclaim : (Step.claim (a.candidate e h (pathOf basePath e h, verb))).outcome d =
          (.ok (claimedId d (a.candidate e h (pathOf basePath e h, verb))),
            claimed d (a.candidate e h (pathOf basePath e h, verb))) := rfl
      simp only [addHandler, hv, hh, Bool.false_eq_true, ↓reduceIte]
      refine (ExceptT.outcome_bind_ok hclaim).trans ?_
      cases hd : a.described e h (pathOf basePath e h, verb) d with
      | mk r b =>
        cases r with
        | ok o => exact ExceptT.outcome_bind_ok hd
        | error f => exact ExceptT.outcome_bind_error hd

inductive HandlerStep (a : Assembly) (basePath : Option String) (e : Endpoint) (h : Handler)
    (d : Draft) : Except Failure Unit → Draft → Prop
  | passed (hs : slotOf? basePath e h = none) : HandlerStep a basePath e h d (.ok ()) d
  | filled {slot : Slot} {o : Operation} {b : Draft} (hs : slotOf? basePath e h = some slot)
      (ho : a.described e h slot d = (.ok o, b)) :
      HandlerStep a basePath e h d (.ok ())
        { b with document := a.place slot.1 slot.2 o b.document }
  | failed {slot : Slot} {f : Failure} {b : Draft} (hs : slotOf? basePath e h = some slot)
      (ho : a.described e h slot d = (.error f, b)) : HandlerStep a basePath e h d (.error f) b

theorem handlerStep_of_outcome {d d' : Draft} {r : Except Failure Unit}
    (ho : (a.addHandler basePath e h).outcome d = (r, d')) : HandlerStep a basePath e h d r d' := by
  cases hs : slotOf? basePath e h with
  | none =>
    rw [addHandler_passed hs] at ho
    cases ho
    exact .passed hs
  | some slot =>
    rw [addHandler_filled hs] at ho
    cases hd : a.described e h slot d with
    | mk answer b =>
      rw [hd] at ho
      cases answer with
      | ok o =>
        cases ho
        exact .filled hs hd
      | error f =>
        cases ho
        exact .failed hs hd

/-- Of its endpoint a handler takes all but the handlers beside it. -/
theorem addHandlers_beside (hs others : List Handler) :
    a.addHandlers basePath { e with handlers := others } hs = a.addHandlers basePath e hs := by
  induction hs with
  | nil => rfl
  | cons h hs ih =>
    unfold addHandlers
    rw [ih]
    rfl

/-- The parts of an operation, in the order in which they are made: its tags touch the
document, and all behind them the arena only. -/
theorem described_parts {slot : Slot} {d b : Draft} {o : Operation}
    (ho : a.described e h slot d = (.ok o, b)) :
    o.operationId = some (claimedId d (a.candidate e h slot)) ∧
    ∃ (tagged : Draft) (v₁ v₂ v₃ : Arena) (own : Responses),
      (a.operationTags e h (claimedId d (a.candidate e h slot))).outcome
        (claimed d (a.candidate e h slot)) = (.ok o.tags, tagged) ∧
      (parameters a.catalog a.infer h).outcome tagged.arena = (.ok o.parameters, v₁) ∧
      (requestBody a.infer e h).outcome v₁ = (.ok o.requestBody, v₂) ∧
      (responses a.catalog a.infer e h).outcome v₂ = (.ok own, v₃) ∧ o.responses = some own ∧
      (a.callbacks h).outcome v₃ = (.ok o.callbacks, b.arena) ∧
      b.document = tagged.document := by
  obtain ⟨extensions, d₁, hcheck, ho⟩ := ExceptT.outcome_bind_eq_ok ho
  obtain ⟨tags, d₂, htags, ho⟩ := ExceptT.outcome_bind_eq_ok ho
  obtain ⟨servers, d₃, hservers, ho⟩ := ExceptT.outcome_bind_eq_ok ho
  obtain ⟨parameters, d₄, hparameters, ho⟩ := ExceptT.outcome_bind_eq_ok ho
  obtain ⟨body, d₅, hbody, ho⟩ := ExceptT.outcome_bind_eq_ok ho
  obtain ⟨own, d₆, hresponses, ho⟩ := ExceptT.outcome_bind_eq_ok ho
  obtain ⟨called, d₇, hcallbacks, ho⟩ := ExceptT.outcome_bind_eq_ok ho
  cases ho
  -- checks leave the draft alone
  obtain rfl : claimed d _ = d₁ := (Prod.mk.inj hcheck).2
  obtain rfl : d₂ = d₃ := (Prod.mk.inj hservers).2
  obtain ⟨hparameters, hdocument₁⟩ := outcome_gen_eq hparameters
  obtain ⟨hbody, hdocument₂⟩ := outcome_gen_eq hbody
  obtain ⟨hresponses, hdocument₃⟩ := outcome_gen_eq hresponses
  obtain ⟨hcallbacks, hdocument₄⟩ := outcome_gen_eq hcallbacks
  have hdocument := hdocument₄.trans <| hdocument₃.trans <| hdocument₂.trans hdocument₁
  exact ⟨rfl, d₂, _, _, _, own, htags, hparameters, hbody, hresponses, rfl, hcallbacks, hdocument⟩

/-- An operation carries the id that it was made with. -/
theorem operationId_described {slot : Slot} {d b : Draft} {o : Operation}
    (ho : a.described e h slot d = (.ok o, b)) :
    o.operationId = some (claimedId d (a.candidate e h slot)) := (described_parts ho).1

theorem frame_described {slot : Slot} {d b : Draft} {r : Except Failure Operation}
    (ho : a.described e h slot d = (r, b)) : Frame (claimed d (a.candidate e h slot)) b := by
  have hq := a.framed_operation e h (h.operation.getD {}) (claimedId d (a.candidate e h slot))
    (claimed d (a.candidate e h slot))
  change Frame _ (a.described e h slot d).2 at hq
  rwa [ho] at hq

/-! ### The slots that are filled -/

def filled (a : Assembly) (basePath : Option String) (e : Endpoint) :
    List Handler → Draft → List Slot
  | [], _ => []
  | h :: hs, d =>
    match (a.addHandler basePath e h).outcome d with
    | (.ok _, d') => (slotOf? basePath e h).toList ++ filled a basePath e hs d'
    | (.error _, _) => []

abbrev Call := Option String × Endpoint

def filledBy (a : Assembly) (d : Draft) (call : Call) : List Slot :=
  match (defineTags call.2.tags).outcome d with
  | (.ok _, d') => a.filled call.1 call.2 call.2.handlers d'
  | (.error _, _) => []

def afterCall (a : Assembly) (d : Draft) (call : Call) : Draft :=
  ((a.addEndpoint call.1 call.2).outcome d).2

/-- The draft after endpoints were added one by one, each whether or not those
before it failed. -/
def afterCalls (a : Assembly) (d : Draft) (calls : List Call) : Draft := calls.foldl a.afterCall d

def filledByAll (a : Assembly) : Draft → List Call → List Slot
  | _, [] => []
  | d, call :: calls => a.filledBy d call ++ filledByAll a (a.afterCall d call) calls

end ApiDoc.Assembly
