import ApiDoc.Document.Content

/-!
# Operations, path items and callbacks

A callback holds path items, whose operations may have callbacks again.
-/

set_option autoImplicit false

namespace ApiDoc

inductive HttpMethod where
  | get
  | put
  | post
  | delete
  | options
  | head
  | patch
  | trace
  deriving DecidableEq, Repr

namespace HttpMethod

def all : List HttpMethod := [.get, .put, .post, .delete, .options, .head, .patch, .trace]

def name : HttpMethod → String
  | .get => "get"
  | .put => "put"
  | .post => "post"
  | .delete => "delete"
  | .options => "options"
  | .head => "head"
  | .patch => "patch"
  | .trace => "trace"

theorem mem_all (m : HttpMethod) : m ∈ all := by
  cases m <;> simp [all]

def ofName? (s : String) : Option HttpMethod := all.find? fun m => m.name = s

def ofAnyCase? (s : String) : Option HttpMethod :=
  ofName? (String.ofList (s.toList.map Char.toLower))

end HttpMethod

structure ByMethod (α : Type) where
  get : Option α := none
  put : Option α := none
  post : Option α := none
  delete : Option α := none
  options : Option α := none
  head : Option α := none
  patch : Option α := none
  trace : Option α := none

namespace ByMethod

variable {α : Type}

def at? (s : ByMethod α) : HttpMethod → Option α
  | .get => s.get
  | .put => s.put
  | .post => s.post
  | .delete => s.delete
  | .options => s.options
  | .head => s.head
  | .patch => s.patch
  | .trace => s.trace

def set (s : ByMethod α) (method : HttpMethod) (value : Option α) : ByMethod α :=
  match method with
  | .get => { s with get := value }
  | .put => { s with put := value }
  | .post => { s with post := value }
  | .delete => { s with delete := value }
  | .options => { s with options := value }
  | .head => { s with head := value }
  | .patch => { s with patch := value }
  | .trace => { s with trace := value }

def toList (s : ByMethod α) : List (HttpMethod × α) :=
  HttpMethod.all.filterMap fun m => (s.at? m).map fun a => (m, a)

theorem mem_toList {s : ByMethod α} {m : HttpMethod} {a : α} :
    (m, a) ∈ s.toList ↔ s.at? m = some a := by
  rw [toList, List.mem_filterMap]
  constructor
  · rintro ⟨other, -, h⟩
    obtain ⟨b, hb, he⟩ := Option.map_eq_some_iff.mp h
    cases he
    exact hb
  · intro h
    exact ⟨m, m.mem_all, by rw [h, Option.map_some]⟩

theorem at?_set_self (s : ByMethod α) (m : HttpMethod) (value : Option α) :
    (s.set m value).at? m = value := by
  cases m <;> rfl

theorem at?_set_ne (s : ByMethod α) {m other : HttpMethod} (ne : other ≠ m)
    (value : Option α) : (s.set m value).at? other = s.at? other := by
  cases m <;> cases other <;> first | rfl | exact absurd rfl ne

end ByMethod

abbrev SecurityRequirement := Ordered (List String)

structure PathItemOf (operation : Type) where
  reference : Option String := none
  summary : Option String := none
  description : Option String := none
  slots : ByMethod operation := {}
  servers : List Server := []
  parameters : List Parameter := []
  extensions : Extensions := {}

structure CallbackOf (operation : Type) where
  reference : Option String := none
  expressions : Ordered (PathItemOf operation) := {}

structure Operation where
  tags : List String := []
  summary : Option String := none
  description : Option String := none
  externalDocs : Option ExternalDocs := none
  operationId : Option String := none
  parameters : List Parameter := []
  requestBody : Option RequestBody := none
  responses : Option Responses := none
  callbacks : Ordered (CallbackOf Operation) := {}
  deprecated : Option Bool := none
  security : Option (List SecurityRequirement) := none
  servers : List Server := []
  extensions : Extensions := {}
  deriving Inhabited

abbrev PathItem := PathItemOf Operation

abbrev Callback := CallbackOf Operation

namespace Operation

mutual
def height : Operation → Nat
  | ⟨_, _, _, _, _, _, _, _, callbacks, _, _, _, _⟩ => heightCallbacks callbacks.rows + 1
def heightCallbacks {keys : List String} : Ordered.Rows (CallbackOf Operation) keys → Nat
  | .nil => 0
  | .cons callback rows => max (heightCallback callback) (heightCallbacks rows)
def heightCallback : CallbackOf Operation → Nat
  | ⟨_, expressions⟩ => heightItems expressions.rows
def heightItems {keys : List String} : Ordered.Rows (PathItemOf Operation) keys → Nat
  | .nil => 0
  | .cons item rows => max (heightItem item) (heightItems rows)
def heightItem : PathItemOf Operation → Nat
  | ⟨_, _, _, ⟨get, put, post, delete, options, head, patch, trace⟩, _, _, _⟩ =>
    max (heightSlot get) (max (heightSlot put) (max (heightSlot post) (max (heightSlot delete)
      (max (heightSlot options) (max (heightSlot head) (max (heightSlot patch)
        (heightSlot trace)))))))
def heightSlot : Option Operation → Nat
  | some o => o.height
  | none => 0
end

end Operation

namespace PathItemOf

def operations (item : PathItem) : List (HttpMethod × Operation) := item.slots.toList

def height (item : PathItem) : Nat := Operation.heightItem item

end PathItemOf

namespace CallbackOf

def height (callback : Callback) : Nat := Operation.heightCallback callback

end CallbackOf

end ApiDoc
