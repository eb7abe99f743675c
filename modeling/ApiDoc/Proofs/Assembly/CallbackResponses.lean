import ApiDoc.Proofs.Assembly.Responses
import ApiDoc.Proofs.Node.Callbacks

/-!
# Responses of callbacks

The responses of a callback's operation are kept by the status that is written in their
notes, those of a handler by the status or `default`. So the same notes give the same keys
on both sides unless one of them leaves the status out, which stands under the empty text
in a callback.
-/

set_option autoImplicit false

namespace ApiDoc

open Inference (Gen Arena)

variable {infer : TypeExpr → Gen Schema} {a b : Arena}

/-- A table that is filled from notes has a key for each, in the order of their first
occurrences. -/
theorem Ordered.keys_ofPaired {α β : Type} {f : α → Gen β} {keyOf : α → String} {notes : List α}
    {made : List (α × β)} (h : (ExceptT.paired f notes).outcome a = (.ok made, b)) :
    (Ordered.ofRows (made.map fun row => (keyOf row.1, row.2))).keys =
      (notes.map keyOf).eraseDups := by
  rw [Ordered.keys_ofRows, ← (ExceptT.paired_eq_ok h).1, List.map_map, List.map_map]
  rfl

theorem CallbackOperationNote.keys_responses {n : CallbackOperationNote} {o : Operation}
    (h : (n.node infer).outcome a = (.ok o, b)) :
    ∃ r, o.responses = some r ∧ r.entries.keys = (n.responses.map (·.status)).eraseDups := by
  have htable : responseTable infer n.responses =
      ExceptT.paired (fun r => r.node infer [] none) n.responses >>= fun made =>
        pure (Ordered.ofRows (made.map fun row => (row.1.status, row.2))) := by
    simp only [Ordered.ofRows, Ordered.putAll, List.foldl_map]
    exact ExceptT.foldlM_eq_paired _
      (fun (rs : Ordered Response) (r : ResponseNote) response => rs.put r.status response)
      n.responses {}
  obtain ⟨ps, c, -, h⟩ := ExceptT.outcome_bind_eq_ok h
  obtain ⟨body, d, -, h⟩ := ExceptT.outcome_bind_eq_ok h
  obtain ⟨table, e, hfilled, h⟩ := ExceptT.outcome_bind_eq_ok h
  obtain ⟨rfl, -⟩ := ExceptT.outcome_pure_eq_ok h
  rw [htable] at hfilled
  obtain ⟨made, f, hmade, hfilled⟩ := ExceptT.outcome_bind_eq_ok hfilled
  obtain ⟨rfl, -⟩ := ExceptT.outcome_pure_eq_ok hfilled
  exact ⟨_, rfl, Ordered.keys_ofPaired hmade⟩

namespace Assembly

/-! ### Keys of ordinary responses -/

theorem statusKey_ne_empty (n : ResponseNote) : statusKey n ≠ "" := by
  unfold statusKey
  split
  · decide
  · rename_i hstatus
    simpa using hstatus

theorem statusKey_of_status {n : ResponseNote} (hn : n.status ≠ "") : statusKey n = n.status := by
  rw [statusKey, if_neg (by simpa using hn)]

theorem keys_responses {catalog : Catalog} {e : Endpoint} {h : Handler} {r : Responses}
    (hown : h.responses ≠ []) (hnone : e.responses.filter (isInherited h) = [])
    (hrun : (responses catalog infer e h).outcome a = (.ok r, b)) :
    r.entries.keys = (h.responses.map statusKey).eraseDups := by
  rw [responses_eq (Or.inl hown), responseNotes_eq, hnone, List.append_nil] at hrun
  obtain ⟨entries, c, hentries, hrun⟩ := ExceptT.outcome_bind_eq_ok hrun
  obtain ⟨rfl, -⟩ := ExceptT.outcome_pure_eq_ok hrun
  rw [notedResponses_eq] at hentries
  obtain ⟨made, d, hmade, hentries⟩ := ExceptT.outcome_bind_eq_ok hentries
  obtain ⟨rfl, -⟩ := ExceptT.outcome_pure_eq_ok hentries
  exact Ordered.keys_ofPaired hmade

theorem statuses_eq_keys_iff {notes : List ResponseNote} :
    (notes.map (·.status)).eraseDups = (notes.map statusKey).eraseDups ↔
      ∀ n ∈ notes, n.status ≠ "" := by
  constructor
  · intro heq n hn hstatus
    have hblank : "" ∈ (notes.map (·.status)).eraseDups :=
      List.mem_eraseDups.mpr (List.mem_map.mpr ⟨n, hn, hstatus⟩)
    rw [heq, List.mem_eraseDups] at hblank
    obtain ⟨other, -, hkey⟩ := List.mem_map.mp hblank
    exact statusKey_ne_empty other hkey
  · intro hall
    have hkeys : notes.map statusKey = notes.map (·.status) :=
      List.map_congr_left fun n hn => statusKey_of_status (hall n hn)
    rw [hkeys]

/-- The responses of an operation in a callback are kept by the written statuses. A handler
that notes the same responses, and inherits none, has the same keys if and only if none of
them leaves its status out. -/
theorem callback_keys_as_ordinary_iff {n : CallbackNote} {c : Callback}
    (hnode : (n.node infer).outcome a = (.ok c, b)) {row : String × PathItem}
    (hrow : row ∈ c.expressions.entries) {m : HttpMethod} {o : Operation}
    (ho : row.2.slots.at? m = some o) :
    ∃ own rs, n.operationFor? m = some own ∧ o.responses = some rs ∧
      rs.entries.keys = (own.responses.map (·.status)).eraseDups ∧
      ∀ catalog (infer : TypeExpr → Gen Schema) e h a r b, h.responses = own.responses →
        own.responses ≠ [] → e.responses.filter (isInherited h) = [] →
        (responses catalog infer e h).outcome a = (.ok r, b) →
        r.entries.keys = (own.responses.map statusKey).eraseDups ∧ "" ∉ r.entries.keys ∧
        (rs.entries.keys = r.entries.keys ↔ ∀ note ∈ own.responses, note.status ≠ "") := by
  obtain ⟨own, u, v, hown, hmade⟩ := CallbackNote.node_of_slot hnode hrow ho
  obtain ⟨rs, hrs, hkeys⟩ := CallbackOperationNote.keys_responses hmade
  refine ⟨own, rs, hown, hrs, hkeys, fun catalog infer e h a r b hsame hne hnone hrun => ?_⟩
  have hordinary := keys_responses (hsame ▸ hne) hnone hrun
  rw [hsame] at hordinary
  refine ⟨hordinary, fun hblank => ?_, ?_⟩
  · rw [hordinary, List.mem_eraseDups] at hblank
    obtain ⟨note, -, hkey⟩ := List.mem_map.mp hblank
    exact statusKey_ne_empty note hkey
  · rw [hkeys, hordinary]
    exact statuses_eq_keys_iff

section Witness

def answerNotes : List ResponseNote :=
  [{ status := "204" }, { status := "4XX", description := some "Not understood" },
    { reference := some "Problem" }]

def billedNote : CallbackNote where
  name := "billed"
  expression := "url"
  operations := [{ method := .post, responses := answerNotes }]

def billedOutcome : Except Failure Callback × Arena :=
  (billedNote.node (Inference.schemaOf {} 9)).outcome {}

def billedCallback : Callback := billedOutcome.1.toOption.getD {}

theorem billed_described : (billedNote.node (Inference.schemaOf {} 9)).outcome {} =
    (.ok billedCallback, billedOutcome.2) :=
  Prod.ext (by rfl) rfl

def billedItem : PathItem := (billedCallback.expressions.get? "url").getD {}

def billedOperation : Operation := (billedItem.slots.at? .post).getD {}

def billHandler : Handler where
  name := "bill"
  responses := answerNotes

def billOutcome : Except Failure Responses × Arena :=
  (responses {} (Inference.schemaOf {} 9) {} billHandler).outcome {}

def billResponses : Responses := billOutcome.1.toOption.getD {}

theorem bill_described : (responses {} (Inference.schemaOf {} 9) {} billHandler).outcome {} =
    (.ok billResponses, billOutcome.2) :=
  Prod.ext (by rfl) rfl

theorem callback_keys_as_ordinary_iff_billed :
    (billedNote.node (Inference.schemaOf {} 9)).outcome {} =
      (.ok billedCallback, billedOutcome.2) ∧
    ("url", billedItem) ∈ billedCallback.expressions.entries ∧
    billedItem.slots.at? .post = some billedOperation ∧
    (responses {} (Inference.schemaOf {} 9) {} billHandler).outcome {} =
      (.ok billResponses, billOutcome.2) ∧
    ∃ rs, billedOperation.responses = some rs ∧
      rs.entries.keys = (answerNotes.map (·.status)).eraseDups ∧
      billResponses.entries.keys = (answerNotes.map statusKey).eraseDups ∧
      "" ∉ billResponses.entries.keys ∧
      (rs.entries.keys = billResponses.entries.keys ↔ ∀ note ∈ answerNotes, note.status ≠ "") := by
  have hrow : ("url", billedItem) ∈ billedCallback.expressions.entries := List.mem_cons_self
  have hslot : billedItem.slots.at? .post = some billedOperation := rfl
  obtain ⟨own, rs, hown, hrs, hkeys, hcompare⟩ :=
    callback_keys_as_ordinary_iff billed_described hrow hslot
  have hnoted : billedNote.operationFor? .post =
      some { method := .post, responses := answerNotes } := rfl
  obtain rfl := Option.some.inj (hown.symm.trans hnoted)
  have hordinary := hcompare {} _ {} billHandler {} billResponses _ rfl
    (List.cons_ne_nil _ _) rfl bill_described
  exact ⟨billed_described, hrow, hslot, bill_described, rs, hrs, hkeys, hordinary⟩

end Witness

section Counterexample

/-- The same notes give the default response to the handler and an empty key to the
callback. -/
theorem billed_default_unnamed :
    (billedNote.node (Inference.schemaOf {} 9)).outcome {} =
      (.ok billedCallback, billedOutcome.2) ∧
    (responses {} (Inference.schemaOf {} 9) {} billHandler).outcome {} =
      (.ok billResponses, billOutcome.2) ∧
    billedNote.operations.map (·.responses) = [billHandler.responses] ∧
    billedOperation.responses.map (·.entries.keys) = some ["204", "4XX", ""] ∧
    billResponses.entries.keys = ["204", "4XX", "default"] :=
  ⟨billed_described, bill_described, rfl, by rfl, by rfl⟩

end Counterexample

end Assembly

end ApiDoc
