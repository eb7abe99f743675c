import ApiDoc.Proofs.Assembly.Parameters

/-!
# Notes without a place

A note of the handler that gives a name and no place is put where the argument that it
names is bound, or into the query. It is laid over the parameter of this name that the
arguments have brought if that parameter has this very place. A parameter that has its place
from somewhere else (the note of its argument, or the binding of a struct whose field it is)
stays as it is, and the note becomes another parameter of the name.
-/

set_option autoImplicit false

namespace ApiDoc

open Inference (Gen Arena)

def Handler.placeOf (h : Handler) (name : String) : ParameterLocation :=
  (((h.argument? name).bind (·.binding)).map (·.location)).getD .query

structure ParameterNote.Unplaced (n : ParameterNote) (name : String) : Prop where
  visible : n.hidden = false
  reference : n.reference = none
  named : n.name = some name
  location : n.location = none

def Parameter.isNamed (name : String) (p : Parameter) : Bool :=
  p.reference.isNone && p.name = some name

namespace Assembly

variable {infer : TypeExpr → Gen Schema} {catalog : Catalog} {h : Handler} {a b : Arena}

/-- What is given for the input is laid over the one parameter that is there for it. -/
theorem push_eq_map {p q : Parameter} {k : Input} (hp : p.input? = some k)
    {ps : List Parameter} (hone : forInput k ps = [q]) :
    pushParameter p ps = ps.map fun r => if r.input? = some k then overlayParameter r p else r := by
  induction ps with
  | nil => cases hone
  | cons r ps ih =>
    unfold forInput at hone ih
    by_cases hr : r.input? = some k
    · have hsame : sameInput r p := sameInput_iff.mpr ⟨k, hr, hp⟩
      rw [List.filter_cons_of_pos (by simpa using hr)] at hone
      have hrest : ∀ s ∈ ps, s.input? ≠ some k := by
        simpa using (List.cons.inj hone).2
      have hkept : (ps.map fun r => if r.input? = some k then overlayParameter r p else r) = ps :=
        (List.map_congr_left fun s hs => if_neg (hrest s hs)).trans (List.map_id ps)
      rw [pushParameter, if_pos hsame, List.map_cons, if_pos hr, hkept]
    · have hdiffer : ¬ sameInput r p := fun hs => by
        obtain ⟨j, hj, hpj⟩ := sameInput_iff.mp hs
        exact hr (hj.trans (hpj.symm.trans hp))
      rw [List.filter_cons_of_neg (by simpa using hr)] at hone
      rw [pushParameter, if_neg hdiffer, List.map_cons, if_neg hr, ih hone]

/-! ### Sources and the inputs that they give -/

theorem foldlM_pushSource (ss : List Source) (qs : List Parameter) :
    ss.foldlM (pushSource infer) qs = ExceptT.paired (Source.node infer) ss >>= fun made =>
      pure ((made.map (·.2)).foldl (fun ps p => pushParameter p ps) qs) := by
  simp only [List.foldl_map]
  exact ExceptT.foldlM_eq_paired (Source.node infer) (fun ps _ p => pushParameter p ps) ss qs

theorem inputs_paired {ss : List Source} {made : List (Source × Parameter)}
    (h : (ExceptT.paired (Source.node infer) ss).outcome a = (.ok made, b)) :
    (made.map (·.2)).map (·.input?) = ss.map (·.input?) := by
  obtain ⟨hsources, hnodes⟩ := ExceptT.paired_eq_ok h
  rw [← hsources, List.map_map, List.map_map]
  refine List.map_congr_left fun row hrow => ?_
  obtain ⟨u, v, hnode⟩ := hnodes row hrow
  exact (Source.yields_of_node hnode).input

theorem forInput_eq_nil {k : Input} {ps : List Parameter} :
    forInput k ps = [] ↔ some k ∉ ps.map (·.input?) := by
  simp [forInput]

/-- The parameters at the end are for the inputs of the sources. -/
theorem mem_inputs_parameters {ps : List Parameter} {k : Input}
    (hrun : (parameters catalog infer h).outcome a = (.ok ps, b)) :
    some k ∈ ps.map (·.input?) ↔ some k ∈ (sources catalog h).map (·.input?) := by
  obtain ⟨made, c, hmade, hc⟩ := parameters_eq_ok hrun
  rw [← inputs_paired hmade, ← not_iff_not, ← forInput_eq_nil, ← forInput_eq_nil]
  rcases forInput_parameters (k := k) hc with ⟨hqs, hps⟩ | ⟨q, rest, p, hqs, hps, -⟩
  · simp [hqs, hps]
  · simp [hqs, hps]

theorem mem_inputs_collect {ps : List Parameter} {k : Input} :
    some k ∈ (collect ps).map (·.input?) ↔ some k ∈ ps.map (·.input?) := by
  rw [← not_iff_not, ← forInput_eq_nil, ← forInput_eq_nil]
  cases hps : forInput k ps with
  | nil => simp [forInput_collect_nil hps]
  | cons q rest => simp [forInput_collect_cons hps]

/-- The arguments bring parameters for the inputs of their sources. -/
theorem mem_inputs_arguments {qs : List Parameter} {k : Input}
    (hargs : (h.arguments.foldlM (pushArgument catalog infer) []).outcome a = (.ok qs, b)) :
    some k ∈ qs.map (·.input?) ↔
      some k ∈ (h.arguments.flatMap (argumentSources catalog)).map (·.input?) := by
  rw [foldlM_flatMap infer (pushArgument_eq infer catalog), foldlM_pushSource] at hargs
  obtain ⟨made, c, hmade, hargs⟩ := ExceptT.outcome_bind_eq_ok hargs
  obtain ⟨rfl, -⟩ := ExceptT.outcome_pure_eq_ok hargs
  rw [← inputs_paired hmade]
  exact mem_inputs_collect

theorem mem_noteSources {n : ParameterNote} {s : Source} :
    s ∈ noteSources h n ↔ n.hidden = false ∧ s = .ofNote h n := by
  unfold noteSources
  cases n.hidden <;> simp

/-- The inputs of a handler's parameters are those that its arguments have brought and
those of its visible notes. -/
theorem mem_inputs_iff {ps qs : List Parameter} {k : Input} {c : Arena}
    (hargs : (h.arguments.foldlM (pushArgument catalog infer) []).outcome a = (.ok qs, c))
    (hrun : (parameters catalog infer h).outcome a = (.ok ps, b)) :
    some k ∈ ps.map (·.input?) ↔ some k ∈ qs.map (·.input?) ∨
      ∃ n ∈ h.parameters, n.hidden = false ∧ (Source.ofNote h n).input? = some k := by
  rw [mem_inputs_parameters hrun, sources, List.map_append, List.mem_append,
    mem_inputs_arguments hargs]
  refine or_congr_right ?_
  simp only [List.mem_map, List.mem_flatMap, mem_noteSources]
  constructor
  · rintro ⟨s, ⟨n, hn, hvisible, rfl⟩, hs⟩
    exact ⟨n, hn, hvisible, hs⟩
  · rintro ⟨n, hn, hvisible, hs⟩
    exact ⟨_, ⟨n, hn, hvisible, rfl⟩, hs⟩

/-! ### The one parameter of a name -/

section One

variable {qs : List Parameter} {q : Parameter} {name : String}

theorem input?_of_isNamed {p : Parameter} (hp : p.isNamed name) :
    p.input? = some (some name, p.location) := by
  obtain ⟨hr, hn⟩ : p.reference = none ∧ p.name = some name := by
    simpa [Parameter.isNamed] using hp
  rw [Parameter.input?_eq_some hr, hn]

theorem isNamed_of_input? {p : Parameter} {place : Option ParameterLocation}
    (hp : p.input? = some (some name, place)) : p.isNamed name ∧ p.location = place := by
  obtain ⟨hr, hk⟩ := reference_of_input? hp
  obtain ⟨hn, hl⟩ := Prod.mk.inj hk
  exact ⟨by simp [Parameter.isNamed, hr, ← hn], hl.symm⟩

theorem forInput_of_one (hone : qs.filter (·.isNamed name) = [q]) :
    forInput (some name, q.location) qs = [q] := by
  have hq : q.isNamed name := (List.mem_filter.mp (hone ▸ List.mem_singleton_self q)).2
  have hnamed : ∀ p ∈ qs, p.input? = some (some name, q.location) → p.isNamed name :=
    fun p _ hp => (isNamed_of_input? hp).1
  have hboth : forInput (some name, q.location) qs =
      forInput (some name, q.location) (qs.filter (·.isNamed name)) := by
    unfold forInput
    rw [List.filter_filter]
    refine List.filter_congr fun p hp => ?_
    by_cases hk : p.input? = some (some name, q.location) <;> simp [hk, hnamed p hp]
  rw [hboth, hone]
  simp [forInput, input?_of_isNamed hq]

theorem mem_inputs_of_one (hone : qs.filter (·.isNamed name) = [q])
    (place : Option ParameterLocation) :
    some (some name, place) ∈ qs.map (·.input?) ↔ q.location = place := by
  have hq := List.mem_filter.mp (hone ▸ List.mem_singleton_self q)
  constructor
  · intro hk
    obtain ⟨p, hp, hpk⟩ := List.mem_map.mp hk
    obtain ⟨hnamed, hplace⟩ := isNamed_of_input? hpk
    have hmem : p ∈ qs.filter (·.isNamed name) := List.mem_filter.mpr ⟨hp, hnamed⟩
    rw [hone, List.mem_singleton] at hmem
    rw [← hmem, hplace]
  · rintro rfl
    exact List.mem_map.mpr ⟨q, hq.1, input?_of_isNamed hq.2⟩

/-- Later notes neither take away nor double what is there for an input. -/
theorem forInput_notes {k : Input} {notes : List ParameterNote} {rs : List Parameter}
    (hone : forInput k qs = [q])
    (hrun : (notes.foldlM (pushNote infer h) qs).outcome a = (.ok rs, b)) :
    ∃ r, forInput k rs = [r] := by
  rw [foldlM_flatMap infer (pushNote_eq infer h), foldlM_pushSource] at hrun
  obtain ⟨made, c, -, hrun⟩ := ExceptT.outcome_bind_eq_ok hrun
  obtain ⟨rfl, -⟩ := ExceptT.outcome_pure_eq_ok hrun
  rw [forInput_foldl_push, hone]
  exact ⟨_, foldl_layOver q _⟩

end One

theorem input?_of_unplaced {n : ParameterNote} {name : String} (hn : n.Unplaced name) :
    (Source.ofNote h n).input? = some (some name, some (h.placeOf name)) := by
  simp [Source.ofNote, Source.input?, Source.reference, Source.name, Source.location,
    Handler.placeOf, hn.reference, hn.named, hn.location]

/-- Of the parameters that the arguments have brought, let one alone have the name of a note
that gives no place. If it has the place that such a note is given, the note is laid over it
and adds no parameter. If not, the note leaves it as it is. There is a parameter of this
name at the end in its place and in the places of the notes, and nowhere else. -/
theorem unplaced_note_joins {n : ParameterNote} {name : String}
    {earlier later : List ParameterNote} {qs ps : List Parameter} {q : Parameter} {c : Arena}
    (hargs : (h.arguments.foldlM (pushArgument catalog infer) []).outcome a = (.ok qs, c))
    (hone : qs.filter (·.isNamed name) = [q]) (hsplit : h.parameters = earlier ++ n :: later)
    (hn : n.Unplaced name) (hrun : (parameters catalog infer h).outcome a = (.ok ps, b)) :
    (∃ rs d p e, (earlier.foldlM (pushNote infer h) qs).outcome c = (.ok rs, d) ∧
      ((Source.ofNote h n).node infer).outcome d = (.ok p, e) ∧
      (pushNote infer h rs n).outcome d = (.ok (pushParameter p rs), e) ∧
      (q.location = some (h.placeOf name) → pushParameter p rs =
        rs.map fun r => if r.input? = q.input? then overlayParameter r p else r) ∧
      (q.location ≠ some (h.placeOf name) →
        forInput (some name, q.location) (pushParameter p rs) =
          forInput (some name, q.location) rs)) ∧
    ∀ place, some (some name, some place) ∈ ps.map (·.input?) ↔ q.location = some place ∨
      ∃ m ∈ h.parameters, m.hidden = false ∧
        (Source.ofNote h m).input? = some (some name, some place) := by
  refine ⟨?_, fun place => ?_⟩
  · have hall := hrun
    unfold parameters at hall
    rw [ExceptT.outcome_bind_ok hargs, hsplit, List.foldlM_append] at hall
    obtain ⟨ts, f, hnotes, -⟩ := ExceptT.outcome_bind_eq_ok hall
    obtain ⟨rs, d, hearlier, hnotes⟩ := ExceptT.outcome_bind_eq_ok hnotes
    rw [List.foldlM_cons] at hnotes
    obtain ⟨rs', e, hnote, -⟩ := ExceptT.outcome_bind_eq_ok hnotes
    have hpush : pushNote infer h rs n = pushSource infer rs (.ofNote h n) := by
      rw [pushNote_eq, noteSources, hn.visible]
      exact bind_pure _
    have hmade := hnote
    rw [hpush] at hmade
    obtain ⟨p, e', hp, hmade⟩ := ExceptT.outcome_bind_eq_ok hmade
    obtain ⟨rfl, rfl⟩ := ExceptT.outcome_pure_eq_ok hmade
    have hinput : p.input? = some (some name, some (h.placeOf name)) :=
      (Source.yields_of_node hp).input.trans (input?_of_unplaced hn)
    have hq : q.isNamed name := (List.mem_filter.mp (hone ▸ List.mem_singleton_self q)).2
    obtain ⟨r, hr⟩ := forInput_notes (forInput_of_one hone) hearlier
    refine ⟨rs, d, p, e', hearlier, hp, hnote, fun hplace => ?_, fun hplace => ?_⟩
    · rw [input?_of_isNamed hq, hplace]
      rw [hplace] at hr
      exact push_eq_map hinput hr
    · rw [forInput_push, hinput, if_neg]
      intro he
      exact hplace (Prod.mk.inj (Option.some.inj he)).2.symm
  · rw [mem_inputs_iff hargs hrun, mem_inputs_of_one hone]

section Witness

def keyCatalog : Catalog := Catalog.ofList [
  { name := "ItemKey", shape := .struct [
    { name := "shop", type := ⟨"u64", []⟩ }, { name := "id", type := ⟨"u64", []⟩ }] }]

def traceNote : ParameterNote where
  name := some "X-Trace"
  description := some "What the request belongs to"

def idNote : ParameterNote where
  name := some "id"
  description := some "Number within the shop"

def itemHandler : Handler where
  name := "item"
  verb := some .get
  arguments := [
    { name := "key", type := ⟨"ItemKey", []⟩, binding := some ⟨.path, "key"⟩ },
    { name := "trace", type := ⟨"String", []⟩, binding := some ⟨.header, "X-Trace"⟩ }]
  parameters := [traceNote, idNote]

def signatureOutcome : Except Failure (List Parameter) × Arena :=
  (itemHandler.arguments.foldlM (pushArgument keyCatalog (Inference.schemaOf keyCatalog 9))
    []).outcome {}

def signatureParameters : List Parameter := signatureOutcome.1.toOption.getD []

theorem signature_described :
    (itemHandler.arguments.foldlM (pushArgument keyCatalog (Inference.schemaOf keyCatalog 9))
      []).outcome {} = (.ok signatureParameters, signatureOutcome.2) :=
  Prod.ext (by rfl) rfl

def itemOutcome : Except Failure (List Parameter) × Arena :=
  (parameters keyCatalog (Inference.schemaOf keyCatalog 9) itemHandler).outcome {}

def itemParameters : List Parameter := itemOutcome.1.toOption.getD []

theorem item_described :
    (parameters keyCatalog (Inference.schemaOf keyCatalog 9) itemHandler).outcome {} =
      (.ok itemParameters, itemOutcome.2) :=
  Prod.ext (by rfl) rfl

def traceParameter : Parameter where
  name := some "X-Trace"
  location := some .header
  required := some true
  schema := some (.ofType .string)

/-- The trace is documented once, in the header. -/
theorem unplaced_note_joins_trace :
    signatureParameters.filter (·.isNamed "X-Trace") = [traceParameter] ∧
    itemHandler.parameters = [] ++ traceNote :: [idNote] ∧
    traceNote.Unplaced "X-Trace" ∧
    traceParameter.location = some (itemHandler.placeOf "X-Trace") ∧
    (∃ rs d p e, (pushNote (Inference.schemaOf keyCatalog 9) itemHandler rs traceNote).outcome d =
        (.ok (pushParameter p rs), e) ∧
      pushParameter p rs =
        rs.map fun r => if r.input? = traceParameter.input? then overlayParameter r p else r) ∧
    ∀ place, some (some "X-Trace", some place) ∈ itemParameters.map (·.input?) ↔
      traceParameter.location = some place ∨ ∃ m ∈ itemHandler.parameters, m.hidden = false ∧
        (Source.ofNote itemHandler m).input? = some (some "X-Trace", some place) := by
  have hone : signatureParameters.filter (·.isNamed "X-Trace") = [traceParameter] := by rfl
  have hsplit : itemHandler.parameters = [] ++ traceNote :: [idNote] := rfl
  have hn : traceNote.Unplaced "X-Trace" := ⟨rfl, rfl, rfl, rfl⟩
  have hplace : traceParameter.location = some (itemHandler.placeOf "X-Trace") := by decide
  obtain ⟨⟨rs, d, p, e, -, -, hpush, hjoined, -⟩, hplaces⟩ :=
    unplaced_note_joins signature_described hone hsplit hn item_described
  exact ⟨hone, hsplit, hn, hplace, ⟨rs, d, p, e, hpush, hjoined hplace⟩, hplaces⟩

end Witness

section Counterexample

/-- The number is a part of the path, and the note on it makes a second one in the query. -/
theorem item_number_doubled :
    (itemHandler.arguments.foldlM (pushArgument keyCatalog (Inference.schemaOf keyCatalog 9))
      []).outcome {} = (.ok signatureParameters, signatureOutcome.2) ∧
    (signatureParameters.filter (·.isNamed "id")).map (·.location) = [some .path] ∧
    idNote ∈ itemHandler.parameters ∧ idNote.Unplaced "id" ∧
    (parameters keyCatalog (Inference.schemaOf keyCatalog 9) itemHandler).outcome {} =
      (.ok itemParameters, itemOutcome.2) ∧
    itemParameters.map (fun p => (p.input?, p.description)) = [
      (some (some "shop", some .path), none), (some (some "id", some .path), none),
      (some (some "X-Trace", some .header), some "What the request belongs to"),
      (some (some "id", some .query), some "Number within the shop")] :=
  ⟨signature_described, by rfl, List.mem_cons_of_mem _ List.mem_cons_self,
    ⟨rfl, rfl, rfl, rfl⟩, item_described, by rfl⟩

end Counterexample

end Assembly

end ApiDoc
