import ApiDoc.Node.Payload
import ApiDoc.Proofs.Inference.Outcome

/-!
# Operations of callbacks

A callback makes one operation after another, and each takes the slot of its method. So a
method is left with the operation of the last note for it.
-/

set_option autoImplicit false

namespace ApiDoc

open Inference (Gen Arena)

variable {infer : TypeExpr → Gen Schema} {a b : Arena}

def CallbackNote.operationFor? (n : CallbackNote) (m : HttpMethod) :
    Option CallbackOperationNote :=
  (n.operations.filter (·.method = m)).getLast?

def PathItemOf.fill (item : PathItem) (made : List (CallbackOperationNote × Operation)) :
    PathItem :=
  made.foldl (fun item row => { item with slots := item.slots.set row.1.method (some row.2) }) item

theorem PathItemOf.at?_fill (item : PathItem) (made : List (CallbackOperationNote × Operation))
    (m : HttpMethod) : (item.fill made).slots.at? m =
      ((made.filter (·.1.method = m)).getLast?.map Prod.snd).or (item.slots.at? m) := by
  induction made using List.reverseRecOn with
  | nil => rfl
  | append_singleton made row ih =>
    have hfill : item.fill (made ++ [row]) =
        { item.fill made with
          slots := (item.fill made).slots.set row.1.method (some row.2) } := by
      rw [fill, List.foldl_append]
      rfl
    rw [hfill, List.filter_append]
    by_cases hm : row.1.method = m
    · subst hm
      rw [ByMethod.at?_set_self]
      simp
    · rw [ByMethod.at?_set_ne _ (Ne.symm hm), ih]
      simp [hm]

/-- Each operation of a callback is made of the last note for its method. -/
theorem CallbackNote.node_of_slot {n : CallbackNote} {c : Callback}
    (h : (n.node infer).outcome a = (.ok c, b)) {row : String × PathItem}
    (hrow : row ∈ c.expressions.entries) {m : HttpMethod} {o : Operation}
    (ho : row.2.slots.at? m = some o) :
    ∃ own u v, n.operationFor? m = some own ∧ (own.node infer).outcome u = (.ok o, v) := by
  have hitem : n.operations.foldlM (fun (item : PathItem) o => do
      let operation ← o.node infer
      pure { item with slots := item.slots.set o.method (some operation) }) {} =
      ExceptT.paired (fun o => o.node infer) n.operations >>= fun made =>
        pure (PathItemOf.fill {} made) :=
    ExceptT.foldlM_eq_paired _ (fun (item : PathItem) (o : CallbackOperationNote) operation =>
      { item with slots := item.slots.set o.method (some operation) }) n.operations {}
  unfold node at h
  split at h
  · obtain ⟨rfl, -⟩ := ExceptT.outcome_pure_eq_ok h
    cases hrow
  · rw [hitem] at h
    obtain ⟨item, d, hfilled, h⟩ := ExceptT.outcome_bind_eq_ok h
    obtain ⟨made, d', hmade, hfill⟩ := ExceptT.outcome_bind_eq_ok hfilled
    obtain ⟨rfl, -⟩ := ExceptT.outcome_pure_eq_ok hfill
    obtain ⟨rfl, -⟩ := ExceptT.outcome_pure_eq_ok h
    split at hrow
    · cases hrow
    · obtain rfl := List.mem_singleton.mp hrow
      have hblank : ({} : PathItem).slots.at? m = none := by cases m <;> rfl
      rw [PathItemOf.at?_fill, hblank, Option.or_none] at ho
      obtain ⟨last, hlast, rfl⟩ := Option.map_eq_some_iff.mp ho
      obtain ⟨hnotes, hnodes⟩ := ExceptT.paired_eq_ok hmade
      have hmem : last ∈ made := List.mem_of_mem_filter (List.mem_of_getLast? hlast)
      obtain ⟨u, v, hnode⟩ := hnodes last hmem
      refine ⟨last.1, u, v, ?_, hnode⟩
      rw [operationFor?, ← hnotes, List.filter_map, List.getLast?_map]
      exact congrArg (Option.map Prod.fst) hlast

end ApiDoc
