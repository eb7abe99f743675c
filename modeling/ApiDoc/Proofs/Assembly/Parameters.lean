import ApiDoc.Proofs.Assembly.Sources
import ApiDoc.Proofs.Inference.Outcome

/-!
# The parameters of a handler

Whatever the sources are, the parameters that come of them stand for different inputs,
each has its place in the request, those of the path are required, and one that an
argument is known by says what its value looks like.
-/

set_option autoImplicit false

namespace ApiDoc

open Inference (Gen Arena)

variable {infer : TypeExpr → Gen Schema} {a b : Arena}

/-! ### The parameter that a note describes -/

theorem SchemaNote.orOf_typed (note : Option SchemaNote) (t : TypeExpr) :
    SchemaNote.orOf infer note (some t) =
      Inference.member infer t note >>= fun schema => pure (some schema) := by
  cases note <;> rfl

namespace ContentNote

theorem mediaTypes_ne_nil (named : Option String) (effective : List String) :
    mediaTypes named effective ≠ [] := by
  unfold mediaTypes
  split <;> simp_all

theorem table_eq (effective : List String) (fallback : Option TypeExpr)
    (notes : List ContentNote) : table infer effective fallback notes =
      ExceptT.paired (fun n => n.node infer fallback) notes >>= fun made =>
        pure (made.foldl (fun (content : Content) row => content.putAll
          ((mediaTypes row.1.mediaType effective).map fun m => (m, row.2))) {}) :=
  ExceptT.foldlM_eq_paired _ (fun (content : Content) (n : ContentNote) media =>
    content.putAll ((mediaTypes n.mediaType effective).map fun m => (m, media))) notes {}

/-- Every entry stands for a media type at least. -/
theorem isEmpty_table {effective : List String} {fallback : Option TypeExpr}
    {notes : List ContentNote} {c : Content}
    (h : (table infer effective fallback notes).outcome a = (.ok c, b)) :
    c.isEmpty = notes.isEmpty := by
  have hrun : ∀ (made : List (ContentNote × MediaType)) (content : Content),
      (made.foldl (fun (content : Content) row => content.putAll
        ((mediaTypes row.1.mediaType effective).map fun m => (m, row.2))) content).isEmpty =
        (content.isEmpty && made.isEmpty) := by
    intro made
    induction made with
    | nil => exact fun content => (Bool.and_true _).symm
    | cons row made ih =>
      intro content
      rw [List.foldl_cons, ih, Ordered.isEmpty_putAll, List.isEmpty_map,
        List.isEmpty_eq_false_iff.mpr (mediaTypes_ne_nil _ _)]
      simp
  rw [table_eq] at h
  obtain ⟨made, a', hmade, h⟩ := ExceptT.outcome_bind_eq_ok h
  cases h
  rw [hrun made {}, ← (ExceptT.paired_eq_ok hmade).1, List.isEmpty_map]
  rfl

end ContentNote

structure ParameterNote.Yields (infer : TypeExpr → Gen Schema) (n : ParameterNote)
    (fallback : Option TypeExpr) (a : Arena) (p : Parameter) (b : Arena) : Prop where
  reference : p.reference = none
  name : p.name = n.name
  location : p.location = n.location
  schema : n.content = [] →
    (SchemaNote.orOf infer n.schema fallback).outcome a = (.ok p.schema, b) ∧ p.content.isEmpty
  content : n.content ≠ [] → p.schema = none ∧ p.content.isEmpty = false

theorem ParameterNote.yields_of_node {n : ParameterNote} {fallback : Option TypeExpr}
    {p : Parameter} (hr : n.reference = none)
    (h : (n.node infer fallback).outcome a = (.ok p, b)) : n.Yields infer fallback a p b := by
  unfold node at h
  rw [hr] at h
  obtain ⟨extensions, a', hcheck, h⟩ := ExceptT.outcome_bind_eq_ok h
  obtain ⟨-, rfl⟩ := Inference.check_eq_ok hcheck
  obtain ⟨examples, a', hcheck, h⟩ := ExceptT.outcome_bind_eq_ok h
  obtain ⟨-, rfl⟩ := Inference.check_eq_ok hcheck
  dsimp only at h
  split at h
  · rename_i hnone
    obtain ⟨schema, a', hschema, h⟩ := ExceptT.outcome_bind_eq_ok h
    cases h
    refine ⟨rfl, rfl, rfl, fun _ => ⟨hschema, rfl⟩, fun hc => ?_⟩
    exact absurd (List.isEmpty_iff.mp hnone) hc
  · rename_i hsome
    obtain ⟨content, a', hcontent, h⟩ := ExceptT.outcome_bind_eq_ok h
    cases h
    refine ⟨rfl, rfl, rfl, fun hc => ?_, fun _ => ⟨rfl, ?_⟩⟩
    · rw [hc] at hsome
      exact absurd List.isEmpty_nil hsome
    · rw [ContentNote.isEmpty_table hcontent]
      exact Bool.eq_false_iff.mpr hsome

theorem ParameterNote.node_reference {n : ParameterNote} {fallback : Option TypeExpr}
    {p : Parameter} {r : String} (hr : n.reference = some r)
    (h : (n.node infer fallback).outcome a = (.ok p, b)) :
    p = { reference := some (ComponentKind.parameters.pointer r) } := by
  unfold node at h
  rw [hr] at h
  cases h
  rfl

theorem ParameterNote.exclusive_node {n : ParameterNote} {fallback : Option TypeExpr}
    {p : Parameter} (h : (n.node infer fallback).outcome a = (.ok p, b)) : p.Exclusive := by
  cases hr : n.reference with
  | some r =>
    rw [node_reference hr h]
    exact Or.inl rfl
  | none =>
    have hyields := yields_of_node hr h
    by_cases hc : n.content = []
    · exact Or.inr (hyields.schema hc).2
    · exact Or.inl (hyields.content hc).1

namespace Assembly

/-! ### The parameter that a source gives -/

namespace Source

/-- A source gives a parameter for its input, with the schema that its note and its type
describe, or with content. -/
structure Yields (infer : TypeExpr → Gen Schema) (s : Source) (a : Arena) (p : Parameter)
    (b : Arena) : Prop where
  input : p.input? = s.input?
  exclusive : p.Exclusive
  schema : s.reference = none → s.content = [] →
    (SchemaNote.orOf infer s.schemaNote s.type?).outcome a = (.ok p.schema, b) ∧ p.content.isEmpty
  content : s.reference = none → s.content ≠ [] → p.schema = none ∧ p.content.isEmpty = false

theorem yields_of_node {s : Source} {p : Parameter}
    (h : (s.node infer).outcome a = (.ok p, b)) : s.Yields infer a p b := by
  cases s with
  | noted n type name location =>
    obtain ⟨q, c, hq, h⟩ := ExceptT.outcome_bind_eq_ok h
    cases hr : n.reference with
    | some r =>
      obtain rfl := ParameterNote.node_reference hr hq
      cases h
      refine ⟨?_, Or.inl rfl, fun hnone => ?_, fun hnone => ?_⟩
      · simp [Parameter.input?, input?, reference, hr]
      · exact absurd (hr.symm.trans hnone) (by simp)
      · exact absurd (hr.symm.trans hnone) (by simp)
    | none =>
      have hyields := ParameterNote.yields_of_node hr hq
      have hexclusive := ParameterNote.exclusive_node hq
      rw [hyields.reference] at h
      cases h
      refine ⟨?_, hexclusive, fun _ => hyields.schema, fun _ => hyields.content⟩
      simp [Parameter.input?, input?, reference, hr, Source.name, Source.location, hyields.name,
        hyields.location]
  | field location f =>
    obtain ⟨schema, c, hs, h⟩ := ExceptT.outcome_bind_eq_ok h
    cases h
    refine ⟨rfl, Or.inr rfl, fun _ _ => ⟨?_, rfl⟩, fun _ hc => absurd rfl hc⟩
    simp only [schemaNote, type?, SchemaNote.orOf_typed]
    exact (ExceptT.outcome_bind_ok hs).trans rfl
  | bound type binding =>
    obtain ⟨schema, c, hs, h⟩ := ExceptT.outcome_bind_eq_ok h
    cases h
    refine ⟨rfl, Or.inr rfl, fun _ _ => ⟨?_, rfl⟩, fun _ hc => absurd rfl hc⟩
    exact (ExceptT.outcome_bind_ok hs).trans rfl

theorem yields_of_mem {ss : List Source} {made : List (Source × Parameter)} {p : Parameter}
    (hmade : (ExceptT.paired (Source.node infer) ss).outcome a = (.ok made, b))
    (hp : p ∈ made.map (·.2)) : ∃ s ∈ ss, ∃ u v, s.Yields infer u p v := by
  obtain ⟨row, hrow, rfl⟩ := List.mem_map.mp hp
  obtain ⟨hsources, hnodes⟩ := ExceptT.paired_eq_ok hmade
  obtain ⟨u, v, hnode⟩ := hnodes row hrow
  exact ⟨row.1, hsources ▸ List.mem_map_of_mem hrow, u, v, yields_of_node hnode⟩

end Source

/-! ### Parameters that are completed -/

/-- What is settled about a parameter once all sources have spoken: schema and content
stay, a place in the path makes it required, and an argument of its name lends a schema
where there is neither. -/
structure Completes (h : Handler) (p p' : Parameter) : Prop where
  input : p'.input? = p.input?
  content : p'.content = p.content
  schema : p.schema.isSome ∨ p.content.isEmpty = false → p'.schema = p.schema
  required : p.reference = none → p'.location = some .path → p'.required = some true
  described : p.reference = none → p.content.isEmpty → (p.name.bind h.argument?).isSome →
    p'.schema.isSome

theorem completes_of_complete {h : Handler} {p p' : Parameter}
    (ho : (complete infer h p).outcome a = (.ok p', b)) : Completes h p p' := by
  unfold complete at ho
  split at ho
  · rename_i hr
    cases ho
    exact ⟨rfl, rfl, fun _ => rfl, fun hnone => by simp [hnone] at hr,
      fun hnone => by simp [hnone] at hr⟩
  · dsimp only at ho
    -- what is required is settled first, and nothing else is changed by that
    have hq : ∃ required, (if p.location = some .path then { p with required := some true } else p)
        = { p with required := required } ∧ (p.location = some .path → required = some true) := by
      by_cases hl : p.location = some .path
      · exact ⟨some true, by simp [hl], fun _ => rfl⟩
      · exact ⟨p.required, by simp [hl], fun h => absurd h hl⟩
    obtain ⟨required, hq, hrequired⟩ := hq
    rw [hq] at ho
    split at ho
    · rename_i hgiven
      cases ho
      refine ⟨rfl, rfl, fun _ => rfl, fun _ => hrequired, fun _ hc _ => ?_⟩
      simpa [hc] using hgiven
    · rename_i hopen
      have hlack : ¬ (p.schema.isSome ∨ p.content.isEmpty = false) := by
        simpa [not_or] using hopen
      cases hn : p.name.bind h.argument? with
      | none =>
        simp only [hn] at ho
        cases ho
        exact ⟨rfl, rfl, fun hs => absurd hs hlack, fun _ => hrequired,
          fun _ _ hsome => absurd hsome (by simp [hn])⟩
      | some arg =>
        simp only [hn] at ho
        obtain ⟨s, c, -, ho⟩ := ExceptT.outcome_bind_eq_ok ho
        cases ho
        exact ⟨rfl, rfl, fun hs => absurd hs hlack, fun _ => hrequired, fun _ _ _ => rfl⟩

theorem completes_of_completeAll {h : Handler} {ps ps' : List Parameter}
    (ho : (completeAll infer h ps).outcome a = (.ok ps', b)) :
    List.Forall₂ (Completes h) ps ps' := by
  induction ps generalizing ps' a with
  | nil =>
    cases ho
    exact .nil
  | cons p ps ih =>
    obtain ⟨p', c, hp, ho⟩ := ExceptT.outcome_bind_eq_ok ho
    obtain ⟨rest, d, hrest, ho⟩ := ExceptT.outcome_bind_eq_ok ho
    cases ho
    exact .cons (completes_of_complete hp) (ih hrest)

theorem forInput_completed {h : Handler} {ps ps' : List Parameter} (k : Input)
    (hc : List.Forall₂ (Completes h) ps ps') :
    List.Forall₂ (Completes h) (forInput k ps) (forInput k ps') := by
  induction hc with
  | nil => exact .nil
  | cons hp _ ih =>
    unfold forInput at ih ⊢
    rw [List.filter_cons, List.filter_cons, hp.input]
    split
    · exact .cons hp ih
    · exact ih

/-! ### What comes of all sources -/

variable {catalog : Catalog} {h : Handler} {ps : List Parameter}

/-- Each source gives a parameter, and these are laid over one another and completed. -/
theorem parameters_eq_ok (hrun : (parameters catalog infer h).outcome a = (.ok ps, b)) :
    ∃ made c, (ExceptT.paired (Source.node infer) (sources catalog h)).outcome a = (.ok made, c) ∧
      List.Forall₂ (Completes h) (collect (made.map (·.2))) ps := by
  rw [parameters_eq] at hrun
  obtain ⟨made, c, hmade, hrun⟩ := ExceptT.outcome_bind_eq_ok hrun
  exact ⟨made, c, hmade, completes_of_completeAll hrun⟩

/-- For an input there is one parameter at the end, which completes what its sources have
given, or there is none. -/
theorem forInput_parameters {qs : List Parameter} {k : Input}
    (hc : List.Forall₂ (Completes h) (collect qs) ps) :
    (forInput k qs = [] ∧ forInput k ps = []) ∨
    ∃ q rest p, forInput k qs = q :: rest ∧ forInput k ps = [p] ∧
      Completes h (rest.foldl overlayParameter q) p := by
  have hk := forInput_completed k hc
  cases hqs : forInput k qs with
  | nil =>
    rw [forInput_collect_nil hqs, List.forall₂_nil_left_iff] at hk
    exact Or.inl ⟨rfl, hk⟩
  | cons q rest =>
    rw [forInput_collect_cons hqs, List.forall₂_cons_left_iff] at hk
    obtain ⟨p, others, hp, hnone, hps⟩ := hk
    rw [List.forall₂_nil_left_iff] at hnone
    rw [hnone] at hps
    exact Or.inr ⟨q, rest, p, rfl, hps, hp⟩

theorem mem_forInput {p : Parameter} {k : Input} (hp : p ∈ ps) (hk : p.input? = some k) :
    p ∈ forInput k ps := by
  simp [forInput, hp, hk]

theorem input?_of_mem_forInput {p : Parameter} {k : Input} (hp : p ∈ forInput k ps) :
    p.input? = some k := by
  simpa [forInput] using (List.mem_filter.mp hp).2

/-- A parameter that is no reference completes what the sources for its input have given. -/
theorem completes_of_mem {qs : List Parameter} {p : Parameter} {k : Input}
    (hc : List.Forall₂ (Completes h) (collect qs) ps) (hp : p ∈ ps) (hk : p.input? = some k) :
    ∃ q rest, forInput k qs = q :: rest ∧ forInput k ps = [p] ∧
      Completes h (rest.foldl overlayParameter q) p := by
  have hmem := mem_forInput hp hk
  rcases forInput_parameters (k := k) hc with ⟨-, hnone⟩ | ⟨q, rest, p', hqs, hps, hcompletes⟩
  · rw [hnone] at hmem
    cases hmem
  · rw [hps, List.mem_singleton] at hmem
    subst hmem
    exact ⟨q, rest, hqs, hps, hcompletes⟩

theorem nodup_inputs {qs : List Parameter} (hc : List.Forall₂ (Completes h) (collect qs) ps) :
    (ps.filterMap (·.input?)).Nodup := by
  refine List.nodup_iff_count_le_one.mpr fun k => ?_
  have hcount : (ps.filterMap (·.input?)).count k = (forInput k ps).length := by
    rw [List.count_filterMap, List.countP_eq_length_filter]
    exact congrArg List.length (List.filter_congr fun p _ => beq_eq_decide _ _)
  rw [hcount]
  rcases forInput_parameters (k := k) hc with ⟨-, hnone⟩ | ⟨q, rest, p, -, hps, -⟩
  · simp [hnone]
  · simp [hps]

theorem reference_of_input? {p : Parameter} {k : Input} (hk : p.input? = some k) :
    p.reference = none ∧ k = (p.name, p.location) := by
  unfold Parameter.input? at hk
  cases hr : p.reference with
  | none => simpa [hr, eq_comm] using hk
  | some r => simp [hr] at hk

theorem isSome_argument? {arg : Argument} {name : String} (harg : arg ∈ h.arguments)
    (hname : arg.name = name ∨ arg.binding.any (·.name = name)) : (h.argument? name).isSome := by
  unfold Handler.argument?
  cases hb : h.arguments.find? fun a => a.binding.any (·.name = name) with
  | some found => rfl
  | none =>
    have hnot := List.find?_eq_none.mp hb arg harg
    have hfound : (h.arguments.find? (·.name = name)).isSome :=
      List.find?_isSome.mpr ⟨arg, harg, by simpa using hname.resolve_right hnot⟩
    exact hfound

/-- Parameters stand for different inputs. One that is no reference has a place, is
required if this is the path, and has a schema or content if an argument is known by its
name. -/
theorem parameters_well_formed (hrun : (parameters catalog infer h).outcome a = (.ok ps, b)) :
    (ps.filterMap (·.input?)).Nodup ∧ ∀ p ∈ ps, p.reference = none →
      p.location.isSome ∧ (p.location = some .path → p.required = some true) ∧
      ∀ arg ∈ h.arguments, ∀ name, p.name = some name →
        (arg.name = name ∨ arg.binding.any (·.name = name)) → p.content.isEmpty →
        p.schema.isSome := by
  obtain ⟨made, c, hmade, hc⟩ := parameters_eq_ok hrun
  refine ⟨nodup_inputs hc, fun p hp hr => ?_⟩
  have hk := Parameter.input?_eq_some hr
  obtain ⟨q, rest, hqs, -, hcompletes⟩ := completes_of_mem hc hp hk
  have hinput : (rest.foldl overlayParameter q).input? = some (p.name, p.location) :=
    hcompletes.input.symm.trans hk
  obtain ⟨hnone, heq⟩ := reference_of_input? hinput
  obtain ⟨hname, -⟩ := Prod.mk.inj heq
  refine ⟨?_, hcompletes.required hnone, fun arg harg name hn hknown hempty => ?_⟩
  · -- the first source for the input has given it its place
    have hq : q ∈ forInput (p.name, p.location) (made.map (·.2)) := hqs ▸ List.mem_cons_self
    obtain ⟨s, -, u, v, hyields⟩ := Source.yields_of_mem hmade (List.mem_filter.mp hq).1
    have hgiven := hyields.input.symm.trans (input?_of_mem_forInput hq)
    unfold Source.input? at hgiven
    split at hgiven
    · cases hgiven
    · rw [← (Prod.mk.inj (Option.some.inj hgiven)).2]
      rfl
  · refine hcompletes.described hnone (hcompletes.content ▸ hempty) ?_
    rw [← hname, hn]
    exact isSome_argument? harg hknown

section Witness

def limitField : FieldDecl where
  name := "limit"
  type := ⟨"Option", [⟨"u32", []⟩]⟩
  schema := some { type := some "integer", maximum := some "50" }

def searchCatalog : Catalog := Catalog.ofList [
  { name := "Query", shape := .struct [{ name := "term", type := ⟨"String", []⟩ }, limitField] },
  { name := "Area", shape := .struct [{ name := "north", type := ⟨"f64", []⟩ }] }]

def shopNote : SchemaNote := { type := some "string", format := some "uuid" }

def searchHandler : Handler where
  name := "search"
  verb := some .get
  arguments := [
    { name := "shop", type := ⟨"u64", []⟩, binding := some ⟨.path, "shop"⟩
      parameter := some { schema := some shopNote } },
    { name := "query", type := ⟨"Query", []⟩, binding := some ⟨.query, "query"⟩ },
    { name := "area", type := ⟨"Area", []⟩, binding := some ⟨.query, "area"⟩
      parameter := some { content := [{ mediaType := some "application/json" }] } },
    { name := "token", type := ⟨"String", []⟩, binding := some ⟨.header, "X-Token"⟩ }]
  parameters := [
    { name := some "shop", location := some .path, description := some "Where to look" },
    { name := some "limit", location := some .query, description := some "When to stop" },
    { name := some "area", location := some .query, description := some "How far to look" },
    { reference := some "Language" }]

def searchOutcome : Except Failure (List Parameter) × Arena :=
  (parameters searchCatalog (Inference.schemaOf searchCatalog 9) searchHandler).outcome {}

def searchParameters : List Parameter := searchOutcome.1.toOption.getD []

theorem search_described :
    (parameters searchCatalog (Inference.schemaOf searchCatalog 9) searchHandler).outcome {} =
      (.ok searchParameters, searchOutcome.2) :=
  Prod.ext (by rfl) rfl

theorem parameters_well_formed_search :
    (parameters searchCatalog (Inference.schemaOf searchCatalog 9) searchHandler).outcome {} =
      (.ok searchParameters, searchOutcome.2) ∧
    searchParameters.map (·.input?) = [some (some "shop", some .path),
      some (some "term", some .query), some (some "limit", some .query),
      some (some "area", some .query), some (some "X-Token", some .header), none] ∧
    (searchParameters.filterMap (·.input?)).Nodup ∧ ∀ p ∈ searchParameters, p.reference = none →
      p.location.isSome ∧ (p.location = some .path → p.required = some true) ∧
      ∀ arg ∈ searchHandler.arguments, ∀ name, p.name = some name →
        (arg.name = name ∨ arg.binding.any (·.name = name)) → p.content.isEmpty →
        p.schema.isSome :=
  ⟨search_described, rfl, parameters_well_formed search_described⟩

end Witness

end Assembly

end ApiDoc
