import Mathlib.Data.List.Nodup
import ApiDoc.Assembly.Basic

/-!
# Slots

A slot is a path with a method. Placing an operation fills one slot of the
document, puts the id of the operation where the id of the old one stood, and
changes nothing else among the operations.
-/

set_option autoImplicit false

namespace ApiDoc

abbrev Slot := String × HttpMethod

def Replaced {α : Type} (new : α) (xs ys : List α) : Prop :=
  ∃ before old after, xs = before ++ old ++ after ∧ ys = before ++ new :: after

namespace Replaced

variable {α : Type} {new : α} {xs ys : List α}

theorem within (h : Replaced new xs ys) (before after : List α) :
    Replaced new (before ++ xs ++ after) (before ++ ys ++ after) := by
  obtain ⟨front, old, back, rfl, rfl⟩ := h
  exact ⟨before ++ front, old, back ++ after, by simp, by simp⟩

theorem mem (h : Replaced new xs ys) {x : α} (hx : x ∈ ys) : x = new ∨ x ∈ xs := by
  obtain ⟨front, old, back, rfl, rfl⟩ := h
  simp only [List.mem_append, List.mem_cons] at hx ⊢
  rcases hx with hf | hn | hb
  · exact Or.inr (Or.inl (Or.inl hf))
  · exact Or.inl hn
  · exact Or.inr (Or.inr hb)

theorem nodup (h : Replaced new xs ys) (hx : xs.Nodup) (hn : new ∉ xs) : ys.Nodup := by
  obtain ⟨front, old, back, rfl, rfl⟩ := h
  have hsub : (front ++ back).Sublist (front ++ old ++ back) := by
    rw [List.append_assoc]
    exact (List.Sublist.refl front).append (List.sublist_append_right old back)
  have hout : new ∉ front ++ back := fun hm => hn (hsub.subset hm)
  exact List.nodup_middle.mpr (List.nodup_cons.mpr ⟨hout, hsub.nodup hx⟩)

end Replaced

theorem HttpMethod.nodup_all : HttpMethod.all.Nodup := by decide

namespace PathItemOf

def operationIds (item : PathItem) : List String :=
  item.operations.filterMap fun row => row.2.operationId

theorem operationIds_eq (item : PathItem) :
    item.operationIds =
      HttpMethod.all.filterMap fun m => (item.slots.at? m).bind (·.operationId) := by
  rw [operationIds, operations, ByMethod.toList, List.filterMap_filterMap]
  apply List.filterMap_congr
  intro m _
  cases item.slots.at? m <;> rfl

theorem operationIds_set (item : PathItem) (verb : HttpMethod) {o : Operation} {id : String}
    (ho : o.operationId = some id) (servers : List Server) :
    Replaced id item.operationIds
      { item with servers, slots := item.slots.set verb (some o) }.operationIds := by
  obtain ⟨front, back, hall⟩ := List.append_of_mem verb.mem_all
  have hnodup := HttpMethod.nodup_all
  rw [hall, List.nodup_middle, List.nodup_cons] at hnodup
  -- beside the one method nothing has changed
  have hsame : ∀ m ∈ front ++ back, ((item.slots.set verb (some o)).at? m).bind (·.operationId) =
      (item.slots.at? m).bind (·.operationId) := fun m hm => by
    have hne : m ≠ verb := fun e => hnodup.1 (e ▸ hm)
    rw [item.slots.at?_set_ne hne]
  simp only [operationIds_eq, hall, List.filterMap_append, List.filterMap_cons]
  rw [List.filterMap_congr fun m hm => hsame m (List.mem_append_left _ hm),
    List.filterMap_congr fun m hm => hsame m (List.mem_append_right _ hm), item.slots.at?_set_self]
  refine ⟨_, ((item.slots.at? verb).bind (·.operationId)).toList, _, ?_, by
    simp only [Option.bind_some, ho]
    rfl⟩
  cases (item.slots.at? verb).bind (·.operationId) <;> simp

end PathItemOf

namespace OpenApi

def operationIds (d : OpenApi) : List String :=
  d.operations.filterMap fun row => row.2.2.operationId

def slot? (d : OpenApi) (slot : Slot) : Option Operation :=
  (d.paths.get? slot.1).bind fun item => item.slots.at? slot.2

theorem operationIds_eq (d : OpenApi) :
    d.operationIds = d.paths.entries.flatMap fun row => row.2.operationIds := by
  rw [operationIds, operations, List.filterMap_flatMap]
  apply List.flatMap_congr
  intro row _
  rw [List.filterMap_map]
  rfl

end OpenApi

namespace Assembly

open OpenApi

variable (a : Assembly) (path : String) (verb : HttpMethod) (o : Operation) (d : OpenApi)

theorem slot?_place_self : (a.place path verb o d).slot? (path, verb) = some o := by
  simp only [place, slot?, Ordered.get?_put_self, Option.bind_some]
  exact ByMethod.at?_set_self _ verb _

theorem slot?_place_ne {slot : Slot} (ne : slot ≠ (path, verb)) :
    (a.place path verb o d).slot? slot = d.slot? slot := by
  obtain ⟨p, m⟩ := slot
  by_cases hp : p = path
  · have hm : m ≠ verb := fun e => ne (by rw [hp, e])
    subst hp
    simp only [place, slot?, Ordered.get?_put_self, Option.bind_some, ByMethod.at?_set_ne _ hm]
    cases d.paths.get? p with
    | none => cases m <;> rfl
    | some item => rfl
  · simp only [place, slot?, Ordered.get?_put_ne _ hp]

theorem operationIds_place {id : String} (ho : o.operationId = some id) :
    Replaced id d.operationIds (a.place path verb o d).operationIds := by
  simp only [operationIds_eq, place, Ordered.entries_put]
  cases hl : d.paths.get? path with
  | none =>
    have hempty : PathItemOf.operationIds {} = [] := rfl
    have hnew := PathItemOf.operationIds_set {} verb ho
    rw [hempty] at hnew
    rw [Ordered.putRow_of_lookup_eq_none _ _ hl]
    simpa using (hnew _).within (d.paths.entries.flatMap fun row => row.2.operationIds) []
  | some item =>
    obtain ⟨front, back, hrows, hput⟩ := Ordered.putRow_of_lookup_eq_some _ hl
    rw [hput, hrows]
    simpa using (item.operationIds_set verb ho _).within
      (front.flatMap fun row => row.2.operationIds) (back.flatMap fun row => row.2.operationIds)

end Assembly

structure Filled (P : Operation → Prop) (base : OpenApi) (slots : List Slot) (d : OpenApi) :
    Prop where
  holds : ∀ slot ∈ slots, ∃ o, d.slot? slot = some o ∧ P o
  kept : ∀ slot, slot ∉ slots → d.slot? slot = base.slot? slot

namespace Filled

variable {P : Operation → Prop} {base d d' : OpenApi} {slots : List Slot}

theorem start : Filled P base [] base where
  holds := List.forall_mem_nil _
  kept := fun _ _ => rfl

theorem congr {other : List Slot} (h : Filled P base slots d)
    (hs : ∀ slot, slot ∈ slots ↔ slot ∈ other) : Filled P base other d where
  holds := fun slot hm => h.holds slot ((hs slot).mpr hm)
  kept := fun slot hm => h.kept slot fun hn => hm ((hs slot).mp hn)

theorem of_paths (h : Filled P base slots d) (hp : d'.paths = d.paths) :
    Filled P base slots d' := by
  have hslot : ∀ slot, d'.slot? slot = d.slot? slot := fun slot => by
    rw [OpenApi.slot?, OpenApi.slot?, hp]
  constructor
  · intro slot hs
    rw [hslot]
    exact h.holds slot hs
  · intro slot hs
    rw [hslot]
    exact h.kept slot hs

theorem placed (h : Filled P base slots d) (a : Assembly) (slot : Slot) {o : Operation} (ho : P o) :
    Filled P base (slot :: slots) (a.place slot.1 slot.2 o d) := by
  constructor
  · intro other hm
    by_cases he : other = slot
    · rw [he]
      exact ⟨o, a.slot?_place_self _ _ _ _, ho⟩
    · rw [a.slot?_place_ne _ _ _ _ he]
      exact h.holds other ((List.mem_cons.mp hm).resolve_left he)
  · intro other hm
    rw [List.mem_cons, not_or] at hm
    rw [a.slot?_place_ne _ _ _ _ hm.1]
    exact h.kept other hm.2

end Filled

end ApiDoc
