import ApiDoc.Proofs.Assembly.Parameters
import ApiDoc.Proofs.Node.Callbacks

/-!
# Schema and content of parameters with several sources

When a parameter is laid over another, a schema takes the place of a schema, and
content that of both. Once it is made, a schema that was declared looks like one that
was inferred. So what an input ends with is decided by the last of its sources that has
a schema or content at all, and a schema that comes after content stands beside it.
-/

set_option autoImplicit false

namespace ApiDoc

open Inference (Gen Arena)

variable {infer : TypeExpr → Gen Schema} {a b : Arena}

namespace Assembly

/-! ### Schema and content of what is laid over one another -/

theorem schema_foldl_overlay {q : Parameter} {after : List Parameter}
    (h : ∀ p ∈ after, p.schema = none ∧ p.content.isEmpty) :
    (after.foldl overlayParameter q).schema = q.schema := by
  induction after generalizing q with
  | nil => rfl
  | cons p after ih =>
    obtain ⟨⟨hs, hc⟩, hrest⟩ := List.forall_mem_cons.mp h
    rw [List.foldl_cons, ih hrest]
    simp [overlayParameter, hs, hc]

/-- What stands before a parameter is below it. -/
theorem foldl_overlay_split {q : Parameter} {rest before after : List Parameter} {p : Parameter}
    (h : q :: rest = before ++ p :: after) :
    ∃ lower, rest.foldl overlayParameter q = after.foldl overlayParameter lower ∧
      (lower = p ∨ ∃ under, lower = overlayParameter under p) := by
  cases before with
  | nil =>
    cases h
    exact ⟨q, rfl, Or.inl rfl⟩
  | cons first before =>
    obtain ⟨rfl, rfl⟩ : q = first ∧ rest = before ++ p :: after := by simpa using h
    exact ⟨_, by rw [List.foldl_append, List.foldl_cons], Or.inr ⟨_, rfl⟩⟩

/-- What has no content leaves the content as it is, and adds a schema if it has one. -/
theorem plain_foldl_overlay {q : Parameter} {after : List Parameter}
    (h : ∀ p ∈ after, p.content.isEmpty) :
    (after.foldl overlayParameter q).content = q.content ∧
      ((after.foldl overlayParameter q).schema.isSome ↔
        q.schema.isSome ∨ ∃ p ∈ after, p.schema.isSome) := by
  induction after generalizing q with
  | nil => simp
  | cons p after ih =>
    obtain ⟨hp, hrest⟩ := List.forall_mem_cons.mp h
    obtain ⟨hcontent, hschema⟩ := ih (q := overlayParameter q p) hrest
    refine ⟨hcontent.trans (by simp [overlayParameter, hp]), ?_⟩
    rw [List.foldl_cons, hschema]
    cases hs : p.schema <;> simp [overlayParameter, hp, hs]

def SchemaAfterContent (ps : List Parameter) : Prop :=
  ∃ before p after, ps = before ++ p :: after ∧ p.content.isEmpty = false ∧
    (∀ q ∈ after, q.content.isEmpty) ∧ ∃ q ∈ after, q.schema.isSome

theorem exists_last_content {ps : List Parameter} (h : ∃ p ∈ ps, p.content.isEmpty = false) :
    ∃ before p after, ps = before ++ p :: after ∧ p.content.isEmpty = false ∧
      ∀ q ∈ after, q.content.isEmpty := by
  induction ps with
  | nil => simp at h
  | cons p ps ih =>
    by_cases hlater : ∃ q ∈ ps, q.content.isEmpty = false
    · obtain ⟨before, q, after, rfl, hq, hafter⟩ := ih hlater
      exact ⟨p :: before, q, after, rfl, hq, hafter⟩
    · have hafter : ∀ q ∈ ps, q.content.isEmpty := fun q hq => by
        simpa using fun hc => hlater ⟨q, hq, hc⟩
      obtain ⟨q, hq, hc⟩ := h
      rcases List.mem_cons.mp hq with rfl | hq
      · exact ⟨[], q, ps, rfl, hc, hafter⟩
      · exact absurd ⟨q, hq, hc⟩ hlater

theorem exclusive_foldl_overlay {q : Parameter} {rest : List Parameter}
    (h : ∀ p ∈ q :: rest, p.Exclusive) :
    (rest.foldl overlayParameter q).Exclusive ↔ ¬ SchemaAfterContent (q :: rest) := by
  -- what the last content leaves: that content and no schema, until one follows
  have hlast : ∀ before p after, q :: rest = before ++ p :: after → p.content.isEmpty = false →
      (∀ x ∈ after, x.content.isEmpty) →
      ((rest.foldl overlayParameter q).Exclusive ↔ ¬ ∃ x ∈ after, x.schema.isSome) := by
    intro before p after heq hp hafter
    have hnone : p.schema = none :=
      (h p (heq ▸ by simp)).resolve_right (by simp [hp])
    obtain ⟨lower, hfold, hlower⟩ := foldl_overlay_split heq
    have hlower : lower.content.isEmpty = false ∧ lower.schema = none := by
      rcases hlower with rfl | ⟨under, rfl⟩
      · exact ⟨hp, hnone⟩
      · exact ⟨by simp [overlayParameter, hp], by simp [overlayParameter, hp]⟩
    obtain ⟨hcontent, hschema⟩ := plain_foldl_overlay (q := lower) hafter
    rw [hfold, Parameter.Exclusive, hcontent, hlower.1, ← Option.not_isSome_iff_eq_none, hschema,
      hlower.2]
    simp
  by_cases hsome : ∃ p ∈ q :: rest, p.content.isEmpty = false
  · obtain ⟨before, p, after, heq, hp, hafter⟩ := exists_last_content hsome
    constructor
    · rintro hexclusive ⟨before, p, after, heq, hp, hafter, hschema⟩
      exact (hlast before p after heq hp hafter).mp hexclusive hschema
    · intro hnot
      refine (hlast before p after heq hp hafter).mpr fun hschema => ?_
      exact hnot ⟨before, p, after, heq, hp, hafter, hschema⟩
  · have hplain : ∀ p ∈ q :: rest, p.content.isEmpty := fun p hp => by
      simpa using fun hc => hsome ⟨p, hp, hc⟩
    obtain ⟨hq, hrest⟩ := List.forall_mem_cons.mp hplain
    constructor
    · rintro - ⟨before, p, after, heq, hp, -⟩
      exact hsome ⟨p, heq ▸ by simp, hp⟩
    · intro _
      refine Or.inr ?_
      rw [(plain_foldl_overlay hrest).1]
      exact hq

/-! ### The last source decides -/

variable {catalog : Catalog} {h : Handler} {ps : List Parameter}

def Carries (infer : TypeExpr → Gen Schema) (a : Arena) (ps : List Parameter) (k : Input)
    (before : List Source) (g : Gen Schema) : Prop :=
  ∃ p made c schema d, forInput k ps = [p] ∧
    (ExceptT.paired (Source.node infer) before).outcome a = (.ok made, c) ∧
    g.outcome c = (.ok schema, d) ∧ p.schema = some schema

theorem silent_given {s : Source} {p : Parameter} (hs : s.isSilent) (hr : s.reference = none)
    (hp : s.Yields infer a p b) : p.schema = none ∧ p.content.isEmpty := by
  obtain ⟨⟨hc, hn⟩, ht⟩ : (s.content = [] ∧ s.schemaNote = none) ∧ s.type? = none := by
    simpa [Source.isSilent, Source.declaresNothing] using hs
  obtain ⟨hschema, hempty⟩ := hp.schema hr hc
  rw [hn, ht] at hschema
  exact ⟨(ExceptT.outcome_pure_eq_ok hschema).1.symm, hempty⟩

theorem reference_of_source {s : Source} {k : Input} (hk : s.input? = some k) :
    s.reference = none := by
  unfold Source.input? at hk
  cases hr : s.reference with
  | none => rfl
  | some r => simp [hr] at hk

/-- The last source for an input that has a schema at all decides it. -/
theorem carries_of_last {k : Input} {before after : List Source} {s : Source} {g : Gen Schema}
    (hrun : (parameters catalog infer h).outcome a = (.ok ps, b))
    (hsources : sources catalog h = before ++ s :: after) (hk : s.input? = some k)
    (hc : s.content = [])
    (hg : SchemaNote.orOf infer s.schemaNote s.type? = g >>= fun schema => pure (some schema))
    (hafter : ∀ other ∈ after, other.input? = some k → other.isSilent) :
    Carries infer a ps k before g := by
  obtain ⟨made, c, hmade, hcompletes⟩ := parameters_eq_ok hrun
  rw [hsources] at hmade
  obtain ⟨earlier, p, later, u, v, hearlier, hp, hlater, rfl⟩ := ExceptT.paired_split hmade
  have hyields := Source.yields_of_node hp
  obtain ⟨hschema, hempty⟩ := hyields.schema (reference_of_source hk) hc
  rw [hg] at hschema
  obtain ⟨schema, d, hschema, hsome⟩ := ExceptT.outcome_bind_eq_ok hschema
  have hpschema : p.schema = some schema := (ExceptT.outcome_pure_eq_ok hsome).1.symm
  have hsilent : ∀ q ∈ forInput k (later.map (·.2)), q.schema = none ∧ q.content.isEmpty := by
    intro q hq
    obtain ⟨other, hother, x, y, hgiven⟩ :=
      Source.yields_of_mem hlater (List.mem_filter.mp hq).1
    have hinput : other.input? = some k :=
      hgiven.input.symm.trans (input?_of_mem_forInput hq)
    exact silent_given (hafter other hother hinput) (reference_of_source hinput) hgiven
  have hsplit : forInput k ((earlier ++ (s, p) :: later).map (·.2)) =
      forInput k (earlier.map (·.2)) ++ p :: forInput k (later.map (·.2)) := by
    simp [forInput, hyields.input, hk]
  rcases forInput_parameters (k := k) hcompletes with ⟨hnone, -⟩ | ⟨q, rest, p', hqs, hps, hp'⟩
  · rw [hsplit] at hnone
    simp at hnone
  · rw [hsplit] at hqs
    obtain ⟨lower, hfold, hlower⟩ := foldl_overlay_split hqs.symm
    have hlower : lower.schema = some schema := by
      rcases hlower with rfl | ⟨under, rfl⟩
      · exact hpschema
      · simp [overlayParameter, hempty, hpschema]
    have hend : (rest.foldl overlayParameter q).schema = some schema := by
      rw [hfold, schema_foldl_overlay hsilent, hlower]
    refine ⟨p', earlier, u, schema, d, hps, hearlier, hschema, ?_⟩
    rw [hp'.schema (Or.inl (by rw [hend]; rfl)), hend]

theorem orOf_replacing {n : SchemaNote} (hn : n.replacesInference) (type : Option TypeExpr) :
    SchemaNote.orOf infer (some n) type =
      Inference.explicit infer n >>= fun schema => pure (some schema) := by
  cases type with
  | none => simp [SchemaNote.orOf, hn]
  | some t => simp [SchemaNote.orOf, Inference.member, hn]

/-- A schema that a source declares is what the input ends with if all later sources for
it are silent. Of a later one that declares nothing, but has a type at hand, the input
takes the schema that is inferred from that type. -/
theorem declared_schema_kept {k : Input} {n : SchemaNote} {before after : List Source} {s : Source}
    (hrun : (parameters catalog infer h).outcome a = (.ok ps, b))
    (hsources : sources catalog h = before ++ s :: after) (hk : s.input? = some k)
    (hd : s.Declares n) :
    ((∀ other ∈ after, other.input? = some k → other.isSilent) →
      Carries infer a ps k before (Inference.explicit infer n)) ∧
    ∀ middle other last t, after = middle ++ other :: last → other.input? = some k →
      other.declaresNothing → other.type? = some t →
      (∀ more ∈ last, more.input? = some k → more.isSilent) →
      Carries infer a ps k (before ++ s :: middle) (infer t) := by
  obtain ⟨-, hc, hn, hreplaces⟩ := hd
  constructor
  · exact carries_of_last hrun hsources hk hc (hn ▸ orOf_replacing hreplaces s.type?)
  · rintro middle other last t rfl hother hnothing ht hlast
    obtain ⟨hcontent, hnote⟩ : other.content = [] ∧ other.schemaNote = none := by
      simpa [Source.declaresNothing] using hnothing
    have hsources' : sources catalog h = (before ++ s :: middle) ++ other :: last := by
      simp [hsources]
    exact carries_of_last hrun hsources' hother hcontent (by rw [hnote, ht]; rfl) hlast

section Witness

def limitNote : SchemaNote := { type := some "integer", maximum := some "50" }

def searchSources : List Source := sources searchCatalog searchHandler

/-- The limit is declared and kept, for the note that comes later names no argument. -/
theorem declared_schema_kept_limit :
    (parameters searchCatalog (Inference.schemaOf searchCatalog 9) searchHandler).outcome {} =
      (.ok searchParameters, searchOutcome.2) ∧
    searchSources = searchSources.take 2 ++ .field .query limitField :: searchSources.drop 3 ∧
    (Source.field .query limitField).input? = some (some "limit", some .query) ∧
    (Source.field .query limitField).Declares limitNote ∧
    Carries (Inference.schemaOf searchCatalog 9) {} searchParameters (some "limit", some .query)
      (searchSources.take 2) (Inference.explicit (Inference.schemaOf searchCatalog 9) limitNote) :=
  have hd : (Source.field .query limitField).Declares limitNote := ⟨rfl, rfl, rfl, rfl⟩
  ⟨search_described, rfl, rfl, hd,
    (declared_schema_kept search_described
      (show searchSources = searchSources.take 2 ++ .field .query limitField :: searchSources.drop 3
        from rfl) rfl hd).1 (by decide)⟩

end Witness

section Counterexample

def shopArgument : Argument where
  name := "shop"
  type := ⟨"u64", []⟩
  binding := some ⟨.path, "shop"⟩
  parameter := some { schema := some shopNote }

def shopRemark : ParameterNote where
  name := some "shop"
  location := some .path
  description := some "Where to look"

/-- The shop is said to be a text, and a later note on the same input declares nothing but
has the type of the argument at hand: the input ends as a number. -/
theorem declared_shop_replaced :
    Source.ofNoted shopArgument { schema := some shopNote } ∈ searchSources ∧
    Source.ofNote searchHandler shopRemark ∈ searchSources ∧
    (Source.ofNoted shopArgument { schema := some shopNote }).Declares shopNote ∧
    (Source.ofNote searchHandler shopRemark).input? =
      (Source.ofNoted shopArgument { schema := some shopNote }).input? ∧
    (Source.ofNote searchHandler shopRemark).declaresNothing ∧
    (parameters searchCatalog (Inference.schemaOf searchCatalog 9) searchHandler).outcome {} =
      (.ok searchParameters, searchOutcome.2) ∧
    (forInput (some "shop", some .path) searchParameters).map (·.schema) =
      [some (.ofFormat .integer "int64")] ∧
    ((Inference.explicit (Inference.schemaOf searchCatalog 9) shopNote).outcome {}).1 =
      .ok (.ofFormat .string "uuid") := by
  have hfirst : searchSources = Source.ofNoted shopArgument { schema := some shopNote } ::
      searchSources.drop 1 := rfl
  have hlater : searchSources = searchSources.take 5 ++
      Source.ofNote searchHandler shopRemark :: searchSources.drop 6 := rfl
  refine ⟨?_, ?_, ⟨rfl, rfl, rfl, rfl⟩, rfl, rfl, search_described, rfl, rfl⟩
  · rw [hfirst]
    exact List.mem_cons_self
  · rw [hlater]
    simp

end Counterexample

/-! ### Schema beside content -/

theorem Completes.exclusive_iff {p p' : Parameter} (hc : Completes h p p') :
    p'.Exclusive ↔ p.Exclusive := by
  unfold Parameter.Exclusive
  rw [hc.content]
  cases hempty : p.content.isEmpty with
  | true => simp
  | false => rw [hc.schema (Or.inr hempty)]

theorem completed_of_mem {qs : List Parameter} (hc : List.Forall₂ (Completes h) qs ps)
    {p : Parameter} (hp : p ∈ ps) : ∃ q ∈ qs, Completes h q p := by
  induction hc with
  | nil => cases hp
  | cons hqp _ ih =>
    rcases List.mem_cons.mp hp with rfl | hp
    · exact ⟨_, List.mem_cons_self, hqp⟩
    · obtain ⟨q, hq, hqp⟩ := ih hp
      exact ⟨q, List.mem_cons_of_mem _ hq, hqp⟩

theorem exclusive_parameters {qs : List Parameter} (hqs : ∀ q ∈ qs, q.Exclusive)
    (hc : List.Forall₂ (Completes h) (collect qs) ps) {p : Parameter} (hp : p ∈ ps) :
    p.Exclusive ↔ ∀ k, p.input? = some k → ¬ SchemaAfterContent (forInput k qs) := by
  cases hk : p.input? with
  | none =>
    -- a reference is what its source has given
    obtain ⟨q, hq, hqp⟩ := completed_of_mem hc hp
    have hnone : q ∈ (collect qs).filter (·.input?.isNone) :=
      List.mem_filter.mpr ⟨hq, by rw [← hqp.input, hk]; rfl⟩
    rw [references_collect] at hnone
    have hexclusive := hqp.exclusive_iff.mpr (hqs q (List.mem_filter.mp hnone).1)
    exact ⟨fun _ k hsome => absurd hsome (by simp), fun _ => hexclusive⟩
  | some k =>
    obtain ⟨q, rest, hfor, -, hqp⟩ := completes_of_mem hc hp hk
    have hall : ∀ x ∈ q :: rest, x.Exclusive := fun x hx =>
      hqs x (List.mem_filter.mp (hfor ▸ hx : x ∈ forInput k qs)).1
    rw [hqp.exclusive_iff, exclusive_foldl_overlay hall]
    constructor
    · intro hnot j hj
      rw [← Option.some.inj hj, hfor]
      exact hnot
    · intro hall
      exact hfor ▸ hall k rfl

end Assembly

theorem CallbackOperationNote.exclusive_node {n : CallbackOperationNote} {o : Operation}
    (h : (n.node infer).outcome a = (.ok o, b)) : ∀ p ∈ o.parameters, p.Exclusive := by
  have hlist : parameterList infer n.parameters =
      ExceptT.paired (fun n => n.node infer none) n.parameters >>= fun made =>
        pure (made.foldl (fun ps row => ps ++ [row.2]) []) :=
    ExceptT.foldlM_eq_paired _ (fun ps (_ : ParameterNote) p => ps ++ [p]) n.parameters []
  obtain ⟨ps, c, hps, h⟩ := ExceptT.outcome_bind_eq_ok h
  obtain ⟨body, d, -, h⟩ := ExceptT.outcome_bind_eq_ok h
  obtain ⟨responses, e, -, h⟩ := ExceptT.outcome_bind_eq_ok h
  obtain ⟨rfl, -⟩ := ExceptT.outcome_pure_eq_ok h
  rw [hlist] at hps
  obtain ⟨made, c', hmade, hps⟩ := ExceptT.outcome_bind_eq_ok hps
  obtain ⟨rfl, -⟩ := ExceptT.outcome_pure_eq_ok hps
  intro p hp
  rw [List.foldl_append_eq_append, List.nil_append] at hp
  obtain ⟨row, hrow, hp⟩ := List.mem_flatMap.mp hp
  obtain ⟨u, v, hnode⟩ := (ExceptT.paired_eq_ok hmade).2 row hrow
  rw [List.mem_singleton.mp hp]
  exact ParameterNote.exclusive_node hnode

theorem CallbackNote.exclusive_node {n : CallbackNote} {c : Callback}
    (h : (n.node infer).outcome a = (.ok c, b)) :
    ∀ row ∈ c.expressions.entries, ∀ slot ∈ row.2.operations, ∀ p ∈ slot.2.parameters,
      p.Exclusive := by
  intro row hrow slot hslot
  obtain ⟨own, u, v, -, hnode⟩ := node_of_slot h hrow (ByMethod.mem_toList.mp hslot)
  exact CallbackOperationNote.exclusive_node hnode

namespace Assembly

/-- A parameter has both schema and content in one case: among what its sources have
given, the last content is followed by a schema. No parameter of a callback's operation
has both. -/
theorem schema_beside_content (infer : TypeExpr → Gen Schema) (a b : Arena) :
    (∀ catalog h ps, (parameters catalog infer h).outcome a = (.ok ps, b) →
      ∃ made c, (ExceptT.paired (Source.node infer) (sources catalog h)).outcome a =
          (.ok made, c) ∧
        ∀ p ∈ ps, p.Exclusive ↔
          ∀ k, p.input? = some k → ¬ SchemaAfterContent (forInput k (made.map (·.2)))) ∧
    ∀ (n : CallbackNote) (c : Callback), (n.node infer).outcome a = (.ok c, b) →
      ∀ row ∈ c.expressions.entries, ∀ slot ∈ row.2.operations, ∀ p ∈ slot.2.parameters,
        p.Exclusive := by
  refine ⟨fun catalog h ps hrun => ?_, fun n c hrun => CallbackNote.exclusive_node hrun⟩
  obtain ⟨made, c, hmade, hc⟩ := parameters_eq_ok hrun
  have hgiven : ∀ q ∈ made.map (·.2), q.Exclusive := by
    intro q hq
    obtain ⟨s, -, u, v, hyields⟩ := Source.yields_of_mem hmade hq
    exact hyields.exclusive
  exact ⟨made, c, hmade, fun p hp => exclusive_parameters hgiven hc hp⟩

section Witness

def shippedNote : CallbackNote where
  name := "shipped"
  expression := "url"
  operations := [{
    method := .post
    parameters := [
      { name := some "shop", location := some .query
        content := [{ schema := some { type := some "object" } }] },
      { name := some "key", location := some .header, schema := some { type := some "string" } }] }]

def shippedOutcome : Except Failure Callback × Arena :=
  (shippedNote.node (Inference.schemaOf searchCatalog 9)).outcome {}

def shippedCallback : Callback := shippedOutcome.1.toOption.getD {}

theorem schema_beside_content_search :
    (parameters searchCatalog (Inference.schemaOf searchCatalog 9) searchHandler).outcome {} =
      (.ok searchParameters, searchOutcome.2) ∧
    (shippedNote.node (Inference.schemaOf searchCatalog 9)).outcome {} =
      (.ok shippedCallback, shippedOutcome.2) ∧
    (∃ made c, (ExceptT.paired (Source.node (Inference.schemaOf searchCatalog 9))
        searchSources).outcome {} = (.ok made, c) ∧
      ∀ p ∈ searchParameters, p.Exclusive ↔
        ∀ k, p.input? = some k → ¬ SchemaAfterContent (forInput k (made.map (·.2)))) ∧
    ∀ row ∈ shippedCallback.expressions.entries, ∀ slot ∈ row.2.operations,
      ∀ p ∈ slot.2.parameters, p.Exclusive :=
  have hshipped : (shippedNote.node (Inference.schemaOf searchCatalog 9)).outcome {} =
      (.ok shippedCallback, shippedOutcome.2) := Prod.ext (by rfl) rfl
  ⟨search_described, hshipped,
    (schema_beside_content _ _ _).1 searchCatalog searchHandler searchParameters search_described,
    (schema_beside_content _ _ _).2 shippedNote shippedCallback hshipped⟩

end Witness

section Counterexample

/-- The area is described by content, and a later note on it, which declares nothing,
brings the schema of the argument's type. -/
theorem area_schema_beside_content :
    (parameters searchCatalog (Inference.schemaOf searchCatalog 9) searchHandler).outcome {} =
      (.ok searchParameters, searchOutcome.2) ∧
    (forInput (some "area", some .query) searchParameters).map
      (fun p => (p.schema, p.content.keys)) = [(some (.refTo "Area"), ["application/json"])] :=
  ⟨search_described, rfl⟩

end Counterexample

end Assembly

end ApiDoc
