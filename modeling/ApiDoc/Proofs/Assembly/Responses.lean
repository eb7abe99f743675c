import ApiDoc.Assembly.Payload
import ApiDoc.Inference.Declared
import ApiDoc.Proofs.Outcome

/-!
# Responses of a handler and of its endpoint

The handler's notes come first, and the endpoint adds those whose status the handler
does not have. Responses are kept by status, under which one without is the default.
So where one side leaves the status out and the other writes `default`, the endpoint's
note is added after the handler's and takes its key.
-/

set_option autoImplicit false

namespace ApiDoc.Assembly

open Inference (Gen Arena)

/-! ### The last under a key -/

section LastUnder

variable {α β : Type} (key : String)

def lastUnder (keyOf : α → String) (xs : List α) : Option α :=
  (xs.filter (keyOf · = key)).getLast?

theorem lastUnder_append (keyOf : α → String) (xs ys : List α) :
    lastUnder key keyOf (xs ++ ys) = (lastUnder key keyOf ys).or (lastUnder key keyOf xs) := by
  rw [lastUnder, List.filter_append, List.getLast?_append]
  rfl

theorem lastUnder_map (keyOf : β → String) (f : α → β) (xs : List α) :
    lastUnder key keyOf (xs.map f) = (lastUnder key (fun x => keyOf (f x)) xs).map f := by
  rw [lastUnder, List.filter_map, List.getLast?_map]
  rfl

/-- A table that is filled row by row keeps the last row of a key. -/
theorem get?_ofRows_eq_lastUnder (keyOf : α → String) (valueOf : α → β) (xs : List α) :
    (Ordered.ofRows (xs.map fun x => (keyOf x, valueOf x))).get? key =
      (lastUnder key keyOf xs).map valueOf := by
  have hlookup : ∀ rows : List (String × β),
      rows.lookup key = (rows.find? (·.1 = key)).map Prod.snd := by
    intro rows
    induction rows with
    | nil => rfl
    | cons row rows ih =>
      obtain ⟨k, v⟩ := row
      by_cases hk : k = key
      · simp [hk]
      · simp [List.lookup_cons, beq_false_of_ne fun he => hk he.symm, hk, ih]
  have hmap := lastUnder_map key Prod.fst (fun x => (keyOf x, valueOf x)) xs
  rw [lastUnder, List.getLast?_filter] at hmap
  rw [Ordered.get?_ofRows, hlookup, hmap, Option.map_map]
  rfl

variable {key}

theorem lastUnder_filter_congr {keyOf : α → String} {p q : α → Bool} {xs : List α}
    (h : ∀ x ∈ xs, keyOf x = key → p x = q x) :
    lastUnder key keyOf (xs.filter p) = lastUnder key keyOf (xs.filter q) := by
  simp only [lastUnder, List.filter_filter]
  refine congrArg List.getLast? (List.filter_congr fun x hx => ?_)
  by_cases hk : keyOf x = key
  · rw [h x hx hk]
  · simp [hk]

theorem lastUnder_eq_none {keyOf : α → String} {xs : List α} :
    lastUnder key keyOf xs = none ↔ key ∉ xs.map keyOf := by
  simp [lastUnder]

end LastUnder

variable {catalog : Catalog} {infer : TypeExpr → Gen Schema} {e : Endpoint} {h : Handler}
variable {r : Responses} {a b : Arena}

def deliveredType (catalog : Catalog) (h : Handler) : Option TypeExpr :=
  match returnedBy catalog h with
  | .typed t => some t
  | _ => none

def isInherited (h : Handler) (n : ResponseNote) : Bool :=
  !h.responses.any (·.status = n.status)

theorem responseNotes_eq :
    responseNotes e h = h.responses ++ e.responses.filter (isInherited h) := rfl

def respells (h : Handler) (n : ResponseNote) : Bool :=
  isInherited h n && (h.responses.map statusKey).contains (statusKey n)

/-- Only the default can be spelled in two ways. -/
theorem statusKey_of_respells {n : ResponseNote} (hn : respells h n) :
    statusKey n = "default" := by
  obtain ⟨hstatus, hkey⟩ : (∀ own ∈ h.responses, own.status ≠ n.status) ∧
      ∃ own ∈ h.responses, statusKey own = statusKey n := by
    simpa [respells, isInherited] using hn
  obtain ⟨own, hown, he⟩ := hkey
  by_cases hblank : n.status.isEmpty
  · rw [statusKey, if_pos hblank]
  · rw [← he, statusKey]
    split
    · rfl
    · rename_i hfilled
      rw [statusKey, statusKey, if_neg hfilled, if_neg hblank] at he
      exact absurd he (hstatus own hown)

theorem isInherited_of_new {n : ResponseNote} (hn : statusKey n ∉ h.responses.map statusKey) :
    isInherited h n := by
  rw [isInherited, Bool.not_eq_true', Bool.eq_false_iff]
  intro hany
  obtain ⟨own, hown, he⟩ : ∃ own ∈ h.responses, own.status = n.status := by simpa using hany
  exact hn (List.mem_map.mpr ⟨own, hown, by rw [statusKey, he]; rfl⟩)

theorem respells_of_known {n : ResponseNote} (hn : statusKey n ∈ h.responses.map statusKey) :
    respells h n = isInherited h n := by
  rw [respells, List.contains_iff_mem.mpr hn, Bool.and_true]

theorem responseNotes_eq_nil : responseNotes e h = [] ↔ h.responses = [] ∧ e.responses = [] := by
  rw [responseNotes_eq, List.append_eq_nil_iff]
  refine and_congr_right fun hown => ?_
  have hall : ∀ n ∈ e.responses, isInherited h n := fun n _ =>
    isInherited_of_new (by simp [hown])
  rw [List.filter_eq_self.mpr hall]

/-- What is inherited has keys of its own, where it does not respell the handler's. -/
theorem lastUnder_responseNotes (key : String) :
    lastUnder key statusKey (responseNotes e h) =
      (lastUnder key statusKey (e.responses.filter (respells h))).or
        ((lastUnder key statusKey h.responses).or (lastUnder key statusKey e.responses)) := by
  rw [responseNotes_eq, lastUnder_append]
  by_cases hknown : key ∈ h.responses.map statusKey
  · have hrespelled : lastUnder key statusKey (e.responses.filter (respells h)) =
        lastUnder key statusKey (e.responses.filter (isInherited h)) :=
      lastUnder_filter_congr fun n _ hk => respells_of_known (hk ▸ hknown)
    obtain ⟨own, hown⟩ := Option.ne_none_iff_exists'.mp fun hnone =>
      lastUnder_eq_none.mp hnone hknown
    rw [hrespelled, hown, Option.some_or]
  · have hinherited : lastUnder key statusKey (e.responses.filter (isInherited h)) =
        lastUnder key statusKey (e.responses.filter fun _ => true) :=
      lastUnder_filter_congr fun n _ hk => isInherited_of_new (hk ▸ hknown)
    have hrespelled : lastUnder key statusKey (e.responses.filter (respells h)) = none := by
      refine lastUnder_eq_none.mpr fun hmem => ?_
      obtain ⟨n, hn, hk⟩ := List.mem_map.mp hmem
      have hcontains := (Bool.and_eq_true_iff.mp (List.mem_filter.mp hn).2).2
      exact hknown (hk ▸ List.contains_iff_mem.mp hcontains)
    rw [hinherited, hrespelled, lastUnder_eq_none.mpr hknown,
      List.filter_eq_self.mpr fun _ _ => rfl, Option.none_or, Option.none_or, Option.or_none]

/-- Whatever is not inherited has a key of the handler's. -/
theorem eraseDups_statusKey_responseNotes :
    ((responseNotes e h).map statusKey).eraseDups =
      (h.responses.map statusKey).eraseDups ++
        ((e.responses.map statusKey).removeAll (h.responses.map statusKey)).eraseDups := by
  have hinherited : ((e.responses.filter (isInherited h)).map statusKey).removeAll
      (h.responses.map statusKey) =
        (e.responses.map statusKey).removeAll (h.responses.map statusKey) := by
    simp only [List.removeAll, List.filter_map, List.filter_filter]
    refine congrArg (List.map statusKey) (List.filter_congr fun n _ => ?_)
    by_cases hknown : statusKey n ∈ h.responses.map statusKey
    · simp only [Function.comp_apply, List.elem_eq_true_of_mem hknown, Bool.not_true,
        Bool.false_and]
    · rw [isInherited_of_new hknown, Bool.and_true]
  rw [responseNotes_eq, List.map_append, List.eraseDups_append, hinherited]

theorem notedResponses_eq (produces : List String) (fallback : Option TypeExpr)
    (notes : List ResponseNote) : notedResponses infer produces fallback notes =
      ExceptT.paired (fun n => n.node infer produces fallback) notes >>= fun made =>
        pure (Ordered.ofRows (made.map fun row => (statusKey row.1, row.2))) := by
  have hrows : ∀ made : List (ResponseNote × Response),
      Ordered.ofRows (made.map fun row => (statusKey row.1, row.2)) =
        made.foldl (fun rs row => rs.put (statusKey row.1) row.2) {} :=
    fun made => List.foldl_map
  simp only [hrows]
  exact ExceptT.foldlM_eq_paired _ (fun (rs : Ordered Response) n response =>
    rs.put (statusKey n) response) notes {}

theorem responses_eq (hnoted : h.responses ≠ [] ∨ e.responses ≠ []) :
    responses catalog infer e h = (do
      let entries ← notedResponses infer (orInherited h.produces e.produces)
        (deliveredType catalog h) (responseNotes e h)
      pure { entries }) := by
  have hnotes : responseNotes e h ≠ [] := fun hnil => by
    obtain ⟨hown, hinherited⟩ := responseNotes_eq_nil.mp hnil
    exact hnoted.elim (· hown) (· hinherited)
  unfold responses deliveredType
  generalize responseNotes e h = notes at hnotes
  cases notes with
  | nil => exact absurd rfl hnotes
  | cons n notes => cases returnedBy catalog h <;> rfl

/-- The response under a key is that of the handler's last note for it, else of the
endpoint's; the default is that of the endpoint's last note which respells it, if there is
one. The keys of the handler come first, in the order in which they are first noted. -/
theorem noted_responses_by_key (hnoted : h.responses ≠ [] ∨ e.responses ≠ [])
    (hrun : (responses catalog infer e h).outcome a = (.ok r, b)) :
    (∃ made, (ExceptT.paired (fun n => n.node infer (orInherited h.produces e.produces)
        (deliveredType catalog h)) (responseNotes e h)).outcome a = (.ok made, b) ∧
      ∀ key,
        r.entries.get? key = (lastUnder key (fun row => statusKey row.1) made).map Prod.snd ∧
        (lastUnder key (fun row => statusKey row.1) made).map Prod.fst =
          (lastUnder key statusKey (e.responses.filter (respells h))).or
            ((lastUnder key statusKey h.responses).or (lastUnder key statusKey e.responses))) ∧
    (∀ n ∈ e.responses, respells h n → statusKey n = "default") ∧
    r.entries.keys = (h.responses.map statusKey).eraseDups ++
      ((e.responses.map statusKey).removeAll (h.responses.map statusKey)).eraseDups := by
  rw [responses_eq hnoted] at hrun
  obtain ⟨entries, c, hentries, hrun⟩ := ExceptT.outcome_bind_eq_ok hrun
  obtain ⟨rfl, rfl⟩ := ExceptT.outcome_pure_eq_ok hrun
  rw [notedResponses_eq] at hentries
  obtain ⟨made, c', hmade, hentries⟩ := ExceptT.outcome_bind_eq_ok hentries
  obtain ⟨rfl, rfl⟩ := ExceptT.outcome_pure_eq_ok hentries
  have hnotes : made.map Prod.fst = responseNotes e h := (ExceptT.paired_eq_ok hmade).1
  refine ⟨⟨made, hmade, fun key => ⟨?_, ?_⟩⟩, fun n _ => statusKey_of_respells, ?_⟩
  · exact get?_ofRows_eq_lastUnder key (fun row => statusKey row.1) Prod.snd made
  · rw [← lastUnder_map, hnotes, lastUnder_responseNotes]
  · have hkeys : (made.map fun row => (statusKey row.1, row.2)).map Prod.fst =
        (made.map Prod.fst).map statusKey := by
      simp only [List.map_map]
      rfl
    rw [Ordered.keys_ofRows, hkeys, hnotes, eraseDups_statusKey_responseNotes]

section Witness

def listHandler : Handler where
  name := "list"
  returnType := some ⟨"String", []⟩
  responses := [{ reference := some "Problem" }, { status := "200", content := [{}] }]

def itemsEndpoint : Endpoint where
  name := "Items"
  responses := [
    { status := "default", description := some "of the type" },
    { status := "404", description := some "No such item" },
    { status := "200", description := some "Anything" }]
  handlers := [listHandler]

def listOutcome : Except Failure Responses × Arena :=
  (responses {} (Inference.schemaOf {} 9) itemsEndpoint listHandler).outcome {}

def listResponses : Responses := listOutcome.1.toOption.getD {}

theorem list_described :
    (responses {} (Inference.schemaOf {} 9) itemsEndpoint listHandler).outcome {} =
      (.ok listResponses, listOutcome.2) :=
  Prod.ext (by rfl) rfl

theorem noted_responses_by_key_list :
    listHandler.responses ≠ [] ∧
    (responses {} (Inference.schemaOf {} 9) itemsEndpoint listHandler).outcome {} =
      (.ok listResponses, listOutcome.2) ∧
    listResponses.entries.keys = ["default", "200", "404"] :=
  have hnoted : listHandler.responses ≠ [] := List.cons_ne_nil _ _
  ⟨hnoted, list_described,
    (noted_responses_by_key (Or.inl hnoted) list_described).2.2.trans (by decide)⟩

end Witness

section Counterexample

/-- The handler refers to the default response, and the endpoint's default takes its key. -/
theorem list_default_inherited :
    (responses {} (Inference.schemaOf {} 9) itemsEndpoint listHandler).outcome {} =
      (.ok listResponses, listOutcome.2) ∧
    (lastUnder "default" statusKey listHandler.responses).map (·.reference) =
      some (some "Problem") ∧
    (listResponses.entries.get? "default").map (fun r => (r.reference, r.description)) =
      some (none, some "of the type") :=
  ⟨list_described, by decide, by rfl⟩

end Counterexample

end ApiDoc.Assembly
