import ApiDoc.Proofs.Assembly.Handlers
import ApiDoc.Proofs.Inference.Absent

/-!
# What is hidden leaves no trace

A handler without verb or with a hidden operation is passed over before anything is
done for it: it claims no id, mentions no tag, opens no component and cannot fail.
With the fields that are absent this makes two inventories, one with its hidden
parts and one without, lead to the same document or to the same failure.
-/

set_option autoImplicit false

namespace ApiDoc

def Handler.isPassedOver (h : Handler) : Bool := h.verb.isNone || h.operation.any (·.hidden)

def Endpoint.shown (e : Endpoint) : Endpoint :=
  { e with handlers := e.handlers.filter fun h => !h.isPassedOver }

def Inventory.shown (i : Inventory) : Inventory :=
  { i with endpoints := i.endpoints.map Endpoint.shown }

namespace Assembly

variable {a : Assembly} {basePath : Option String} {e : Endpoint}

theorem slotOf?_eq_none_iff {h : Handler} : slotOf? basePath e h = none ↔ h.isPassedOver := by
  unfold slotOf? Handler.isPassedOver
  cases h.verb with
  | none => simp
  | some verb => cases h.operation <;> simp

theorem addHandler_isPassedOver {h : Handler} (hp : h.isPassedOver) :
    a.addHandler basePath e h = pure () :=
  funext fun d => addHandler_passed (slotOf?_eq_none_iff.mpr hp) d

theorem addHandlers_shown (hs : List Handler) :
    a.addHandlers basePath e (hs.filter fun h => !h.isPassedOver) =
      a.addHandlers basePath e hs := by
  induction hs with
  | nil => rfl
  | cons h hs ih =>
    by_cases hp : h.isPassedOver
    · rw [List.filter_cons_of_neg (by simp [hp]), addHandlers, addHandler_isPassedOver hp,
        pure_bind, ih]
    · rw [List.filter_cons_of_pos (by simp [hp]), addHandlers, addHandlers, ih]

theorem addEndpoint_shown (a : Assembly) (basePath : Option String) (e : Endpoint) :
    a.addEndpoint basePath e.shown = a.addEndpoint basePath e := by
  unfold addEndpoint Endpoint.shown
  rw [addHandlers_beside, addHandlers_shown]

theorem addEndpoints_shown (es : List Endpoint) :
    a.addEndpoints basePath (es.map Endpoint.shown) = a.addEndpoints basePath es := by
  induction es with
  | nil => rfl
  | cons e es ih => rw [List.map_cons, addEndpoints, addEndpoints, addEndpoint_shown, ih]

theorem addInventory_shown (a : Assembly) (i : Inventory) :
    a.addInventory i.shown = a.addInventory i := by
  unfold addInventory Inventory.shown
  rw [addEndpoints_shown]

/-- Handlers of which no operation is made have no influence on the document that is
built, nor on the failure; and fields that are absent have none on what types are
described by, request after request, nor on the components. -/
theorem hidden_leaves_no_trace :
    (∀ (settings : Settings) (strategy : IdStrategy) (base : OpenApi) (i : Inventory) (depth : Nat),
      build settings strategy base i.shown depth = build settings strategy base i depth) ∧
    ∀ (catalog : Catalog) (depth : Nat) (arena : Inference.Arena) (rs : List Inference.Request),
      Inference.answers (Inference.schemaOf catalog.trimmed depth) arena rs =
        Inference.answers (Inference.schemaOf catalog depth) arena rs := by
  refine ⟨fun settings strategy base i depth => ?_, fun catalog depth arena rs => ?_⟩
  · unfold build
    dsimp only
    rw [addInventory_shown]
    rfl
  · unfold Inference.schemaOf
    rw [Inference.level_trimmed]

end Assembly

end ApiDoc
