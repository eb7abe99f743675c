import ApiDoc.Proofs.Assembly.Parameters

/-!
# Parameters are settled without inference

A parameter that is named after an argument has the argument's type at hand when it is
made, wherever it comes from. So there is no schema left to infer once the parameters have
been collected: all that is settled then is that those of the path are required.
-/

set_option autoImplicit false

namespace ApiDoc

open Inference (Gen Arena)

variable {infer : TypeExpr → Gen Schema} {catalog : Catalog} {h : Handler} {a b : Arena}

namespace Assembly

def settle (p : Parameter) : Parameter :=
  if p.reference.isSome then p
  else if p.location = some .path then { p with required := some true } else p

theorem settle_eq (p : Parameter) : ∃ required, settle p = { p with required := required } := by
  unfold settle
  split
  · exact ⟨p.required, rfl⟩
  · split
    · exact ⟨some true, rfl⟩
    · exact ⟨p.required, rfl⟩

def Furnished (h : Handler) (p : Parameter) : Prop :=
  p.reference = none → (p.name.bind h.argument?).isSome →
    p.schema.isSome ∨ p.content.isEmpty = false

theorem complete_furnished {p : Parameter} (hp : Furnished h p) :
    complete infer h p = pure (settle p) := by
  by_cases hr : p.reference.isSome
  · rw [complete, settle, if_pos hr, if_pos hr]
  · have hsettle : (if p.location = some .path then { p with required := some true } else p) =
        settle p := by rw [settle, if_neg hr]
    obtain ⟨required, heq⟩ := settle_eq p
    rw [complete, if_neg hr, hsettle, heq]
    dsimp only
    split
    · rfl
    · rename_i hopen
      have hlack : ¬ (p.schema.isSome ∨ p.content.isEmpty = false) := by
        simpa [not_or] using hopen
      cases hn : p.name.bind h.argument? with
      | none => rfl
      | some arg =>
        exact absurd (hp (Option.not_isSome_iff_eq_none.mp hr) (by rw [hn]; rfl)) hlack

theorem completeAll_furnished {ps : List Parameter} (hps : ∀ p ∈ ps, Furnished h p) :
    completeAll infer h ps = pure (ps.map settle) := by
  induction ps with
  | nil => rfl
  | cons p ps ih =>
    obtain ⟨hp, hrest⟩ := List.forall_mem_cons.mp hps
    rw [completeAll, complete_furnished hp, pure_bind, ih hrest, pure_bind]
    rfl

/-! ### Sources furnish what they give -/

/-- The argument that a source is named after is known to the source. -/
theorem Source.type?_of_named {s : Source} (hs : s ∈ sources catalog h)
    (hn : (s.name.bind h.argument?).isSome) : s.type?.isSome := by
  rcases List.mem_append.mp hs with hs | hs
  · obtain ⟨arg, -, hs⟩ := List.mem_flatMap.mp hs
    unfold argumentSources at hs
    split at hs
    · cases hs
    · split at hs
      · split at hs
        · cases hs
        · rw [List.mem_singleton.mp hs]
          rfl
      · cases hs
      · split at hs
        · obtain ⟨f, -, rfl⟩ := List.mem_map.mp hs
          rfl
        · rw [List.mem_singleton.mp hs]
          rfl
  · obtain ⟨n, -, hs⟩ := List.mem_flatMap.mp hs
    unfold noteSources at hs
    split at hs
    · cases hs
    · obtain rfl := List.mem_singleton.mp hs
      have hname : (n.name.bind h.argument?).isSome := by
        simpa [Source.ofNote, Source.name] using hn
      exact Option.isSome_map.trans hname

theorem furnished_of_source {s : Source} {p : Parameter} (hs : s ∈ sources catalog h)
    (hp : s.Yields infer a p b) : Furnished h p := by
  intro hr hn
  have hinput : s.input? = some (p.name, p.location) :=
    hp.input.symm.trans (Parameter.input?_eq_some hr)
  unfold Source.input? at hinput
  split at hinput
  · cases hinput
  · rename_i hsource
    have hsource : s.reference = none := by simpa using hsource
    obtain ⟨hname, -⟩ := Prod.mk.inj (Option.some.inj hinput)
    by_cases hc : s.content = []
    · obtain ⟨t, ht⟩ := Option.isSome_iff_exists.mp (Source.type?_of_named hs (hname ▸ hn))
      obtain ⟨hschema, -⟩ := hp.schema hsource hc
      rw [ht, SchemaNote.orOf_typed] at hschema
      obtain ⟨schema, c, -, hsome⟩ := ExceptT.outcome_bind_eq_ok hschema
      rw [← (ExceptT.outcome_pure_eq_ok hsome).1]
      exact Or.inl rfl
    · exact Or.inr (hp.content hsource hc).2

theorem furnished_overlay {q p : Parameter} (hs : sameInput q p) (hp : Furnished h p) :
    Furnished h (overlayParameter q p) := by
  obtain ⟨k, hq, hk⟩ := sameInput_iff.mp hs
  obtain ⟨-, hname⟩ := reference_of_input? hq
  obtain ⟨hr, hname'⟩ := reference_of_input? hk
  have hsame : q.name = p.name := (Prod.mk.inj (hname.symm.trans hname')).1
  intro _ hn
  have hgiven := hp hr (by rw [← hsame]; exact hn)
  cases hc : p.content.isEmpty with
  | false => exact Or.inr (by simp [overlayParameter, hc])
  | true =>
    refine Or.inl ?_
    obtain ⟨s, hs⟩ := Option.isSome_iff_exists.mp (hgiven.resolve_right (by simp [hc]))
    simp [overlayParameter, hc, hs]

theorem furnished_push {p : Parameter} (hp : Furnished h p) {qs : List Parameter}
    (hqs : ∀ q ∈ qs, Furnished h q) : ∀ q ∈ pushParameter p qs, Furnished h q := by
  induction qs with
  | nil => exact List.forall_mem_singleton.mpr hp
  | cons q qs ih =>
    obtain ⟨hq, hrest⟩ := List.forall_mem_cons.mp hqs
    unfold pushParameter
    split
    · rename_i hs
      exact List.forall_mem_cons.mpr ⟨furnished_overlay hs hp, hrest⟩
    · exact List.forall_mem_cons.mpr ⟨hq, ih hrest⟩

theorem furnished_collect {ps : List Parameter} (hps : ∀ p ∈ ps, Furnished h p) :
    ∀ p ∈ collect ps, Furnished h p := by
  have hrun : ∀ qs, (∀ q ∈ qs, Furnished h q) →
      ∀ q ∈ ps.foldl (fun qs p => pushParameter p qs) qs, Furnished h q := by
    induction ps with
    | nil => exact fun _ hqs => hqs
    | cons p ps ih =>
      obtain ⟨hp, hrest⟩ := List.forall_mem_cons.mp hps
      exact fun qs hqs => ih hrest _ (furnished_push hp hqs)
  exact hrun [] (List.forall_mem_nil _)

/-- The parameters are made one for each source, collected, and settled. -/
theorem parameters_eq_settled (infer : TypeExpr → Gen Schema) (catalog : Catalog) (h : Handler) :
    parameters catalog infer h = (do
      let ps ← (sources catalog h).mapM (Source.node infer)
      pure ((collect ps).map settle)) := by
  have hmapM : (sources catalog h).mapM (Source.node infer) =
      ExceptT.paired (Source.node infer) (sources catalog h) >>= fun made =>
        pure (made.map (·.2)) := by
    rw [← ExceptT.mapM_eq_paired (Source.node infer) fun _ p => p]
    simp only [bind_pure]
  rw [parameters_eq, hmapM]
  simp only [bind_assoc, pure_bind]
  refine ExceptT.bind_congr_ok fun a made b hmade => completeAll_furnished ?_
  refine furnished_collect fun p hp => ?_
  obtain ⟨s, hs, u, v, hyields⟩ := Source.yields_of_mem hmade hp
  exact furnished_of_source hs hyields

end Assembly

end ApiDoc
