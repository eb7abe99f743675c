import ApiDoc.Assembly.Payload
import ApiDoc.Proofs.Assembly.Overlaid
import ApiDoc.Proofs.Assembly.Settled

/-!
# The argument of the request body among the parameters

The request body is described by the type of the first argument that is neither bound nor
noted. Such an argument is no source of parameters by itself, but a note of the handler may
name it and leave the schema to its type. Then the argument is documented twice, and this
is the only way in which the parameters depend on its type.
-/

set_option autoImplicit false

namespace ApiDoc

open Inference (Gen Arena)

/-! ### Notes that leave a schema to the type at hand -/

def SchemaNote.Closed (note : Option SchemaNote) : Prop :=
  ∃ n, note = some n ∧ n.replacesInference

def ParameterNote.Closed (n : ParameterNote) : Prop :=
  if n.content = [] then SchemaNote.Closed n.schema
  else ∀ entry ∈ n.content, SchemaNote.Closed entry.schema

section Closed

variable {infer : TypeExpr → Gen Schema} (t t' : Option TypeExpr)

theorem SchemaNote.orOf_closed {note : Option SchemaNote} (hn : SchemaNote.Closed note) :
    SchemaNote.orOf infer note t = SchemaNote.orOf infer note t' := by
  obtain ⟨n, rfl, hreplaces⟩ := hn
  rw [Assembly.orOf_replacing hreplaces, Assembly.orOf_replacing hreplaces]

theorem ContentNote.table_closed {effective : List String} {notes : List ContentNote}
    (hnotes : ∀ n ∈ notes, SchemaNote.Closed n.schema) :
    ContentNote.table infer effective t notes = ContentNote.table infer effective t' notes := by
  unfold ContentNote.table
  generalize ({} : Content) = content
  induction notes generalizing content with
  | nil => rfl
  | cons n notes ih =>
    obtain ⟨hn, hrest⟩ := List.forall_mem_cons.mp hnotes
    have hnode : n.node infer t = n.node infer t' := by
      unfold ContentNote.node
      rw [SchemaNote.orOf_closed t t' hn]
    rw [List.foldlM_cons, List.foldlM_cons, hnode]
    exact bind_congr fun content' => ih hrest content'

/-- What a closed note describes does not depend on the type at hand. -/
theorem ParameterNote.node_closed {n : ParameterNote} (hn : n.Closed) :
    n.node infer t = n.node infer t' := by
  unfold ParameterNote.Closed at hn
  unfold ParameterNote.node
  by_cases hc : n.content = []
  · rw [if_pos hc] at hn
    rw [SchemaNote.orOf_closed t t' hn, hc]
    rfl
  · rw [if_neg hc] at hn
    rw [ContentNote.table_closed t t' hn,
      List.isEmpty_eq_false_iff.mpr hc]
    rfl

end Closed

/-! ### Another type for the body -/

def Argument.retyped (t : TypeExpr) (arg : Argument) : Argument := { arg with type := t }

def retypeBody (t : TypeExpr) : List Argument → List Argument
  | [] => []
  | arg :: args => if arg.mayBeBody then arg.retyped t :: args else arg :: retypeBody t args

def Handler.withBodyType (h : Handler) (t : TypeExpr) : Handler :=
  { h with arguments := retypeBody t h.arguments }

/-- What is looked for by something else than its type is found in the same place. -/
theorem find?_retypeBody {p : Argument → Bool} (t : TypeExpr)
    (hp : ∀ arg : Argument, p (arg.retyped t) = p arg) (args : List Argument) :
    (retypeBody t args).find? p = args.find? p ∨
      ∃ arg, args.find? p = some arg ∧ args.find? (·.mayBeBody) = some arg ∧
        (retypeBody t args).find? p = some (arg.retyped t) := by
  induction args with
  | nil => exact Or.inl rfl
  | cons arg args ih =>
    unfold retypeBody
    cases hb : arg.mayBeBody with
    | true =>
      cases ha : p arg with
      | true => exact Or.inr ⟨arg, by simp [ha], by simp [hb], by simp [hp, ha]⟩
      | false => exact Or.inl (by simp [hp, ha])
    | false =>
      cases ha : p arg with
      | true => exact Or.inl (by simp [ha])
      | false => simpa [hb, ha] using ih

namespace Handler

variable {h : Handler} {body : Argument}

theorem bodyArgument?_unbound (hbody : h.bodyArgument? = some body) : body.binding = none :=
  (Argument.unbound_of_mayBeBody (List.find?_some (p := Argument.mayBeBody) hbody)).1

theorem argument?_withBodyType (t : TypeExpr) (name : String) :
    (h.withBodyType t).argument? name = h.argument? name ∨
      ∃ body, h.bodyArgument? = some body ∧ h.argument? name = some body ∧
        (h.withBodyType t).argument? name = some (body.retyped t) := by
  have hbound : (retypeBody t h.arguments).find? (fun arg => arg.binding.any (·.name = name)) =
      h.arguments.find? fun arg => arg.binding.any (·.name = name) := by
    rcases find?_retypeBody t (p := fun arg => arg.binding.any (·.name = name)) (fun _ => rfl)
        h.arguments with hsame | ⟨arg, hfound, hbody, -⟩
    · exact hsame
    · -- what is bound is not the body
      have hnone : arg.binding = none := bodyArgument?_unbound (h := h) hbody
      have hany := List.find?_some hfound
      rw [hnone] at hany
      cases hany
  unfold argument? withBodyType
  dsimp only
  rw [hbound]
  cases h.arguments.find? fun arg => arg.binding.any (·.name = name) with
  | some arg => exact Or.inl rfl
  | none =>
    rcases find?_retypeBody t (p := fun arg => arg.name = name) (fun _ => rfl) h.arguments with
      hsame | ⟨arg, hfound, hbody, hretyped⟩
    · exact Or.inl hsame
    · exact Or.inr ⟨arg, hbody, hfound, hretyped⟩

/-- An argument that is not bound is known by its own name. -/
theorem name_of_argument? {name : String} (hfound : h.argument? name = some body)
    (hnone : body.binding = none) : body.name = name := by
  unfold argument? at hfound
  cases hb : h.arguments.find? fun arg => arg.binding.any (·.name = name) with
  | some arg =>
    rw [hb] at hfound
    obtain rfl : arg = body := Option.some.inj hfound
    have hany := List.find?_some hb
    rw [hnone] at hany
    cases hany
  | none =>
    rw [hb] at hfound
    simpa using List.find?_some (p := fun arg : Argument => arg.name = name) hfound

end Handler

structure ParameterNote.DrawsOn (n : ParameterNote) (h : Handler) (arg : Argument) : Prop where
  visible : n.hidden = false
  reference : n.reference = none
  names : n.name.bind h.argument? = some arg
  isOpen : ¬ n.Closed

namespace Assembly

variable {infer : TypeExpr → Gen Schema} {catalog : Catalog} {h : Handler} {body : Argument}

/-! ### Sources that do not draw on the body -/

theorem argumentSources_retypeBody (t : TypeExpr) (args : List Argument) :
    (retypeBody t args).flatMap (argumentSources catalog) =
      args.flatMap (argumentSources catalog) := by
  induction args with
  | nil => rfl
  | cons arg args ih =>
    unfold retypeBody
    split
    · rename_i ha
      have hretyped : (arg.retyped t).mayBeBody := ha
      rw [List.flatMap_cons, List.flatMap_cons, argumentSources_mayBeBody ha,
        argumentSources_mayBeBody hretyped]
    · rw [List.flatMap_cons, List.flatMap_cons, ih]

theorem node_ofNote_withBodyType {n : ParameterNote} (t : TypeExpr) (hn : n.hidden = false)
    (hbody : h.bodyArgument? = some body) (hdraws : ¬ n.DrawsOn h body) :
    (Source.ofNote (h.withBodyType t) n).node infer = (Source.ofNote h n).node infer := by
  cases hr : n.reference with
  | some r => simp [Source.ofNote, Source.node, ParameterNote.node, hr]
  | none =>
    cases hname : n.name with
    | none => simp only [Source.ofNote, hname, Option.bind_none]
    | some name =>
      simp only [Source.ofNote, hname, Option.bind_some]
      rcases Handler.argument?_withBodyType t name (h := h) with
        hsame | ⟨found, hfound, hnamed, hretyped⟩
      · rw [hsame]
      · obtain rfl : found = body := Option.some.inj (hfound.symm.trans hbody)
        have hclosed : n.Closed := by
          by_contra hopen
          exact hdraws ⟨hn, hr, by rw [hname]; exact hnamed, hopen⟩
        rw [hnamed, hretyped]
        simp only [Source.node, Option.map_some, Option.bind_some, Argument.retyped]
        rw [ParameterNote.node_closed (some found.type) (some t) hclosed]

theorem sources_withBodyType (t : TypeExpr) (hbody : h.bodyArgument? = some body)
    (hdraws : ∀ n ∈ h.parameters, ¬ n.DrawsOn h body) :
    (sources catalog (h.withBodyType t)).mapM (Source.node infer) =
      (sources catalog h).mapM (Source.node infer) := by
  have hnotes : ∀ ns : List ParameterNote, (∀ n ∈ ns, ¬ n.DrawsOn h body) →
      (ns.flatMap (noteSources (h.withBodyType t))).mapM (Source.node infer) =
        (ns.flatMap (noteSources h)).mapM (Source.node infer) := by
    intro ns hns
    induction ns with
    | nil => rfl
    | cons n ns ih =>
      obtain ⟨hn, hrest⟩ := List.forall_mem_cons.mp hns
      have hone : (noteSources (h.withBodyType t) n).mapM (Source.node infer) =
          (noteSources h n).mapM (Source.node infer) := by
        unfold noteSources
        cases hh : n.hidden with
        | true => rfl
        | false =>
          simp only [Bool.false_eq_true, ↓reduceIte, List.mapM_cons, List.mapM_nil,
            node_ofNote_withBodyType t hh hbody hn]
      rw [List.flatMap_cons, List.flatMap_cons, List.mapM_append, List.mapM_append, hone, ih hrest]
  have harguments : (h.withBodyType t).arguments.flatMap (argumentSources catalog) =
      h.arguments.flatMap (argumentSources catalog) := argumentSources_retypeBody t h.arguments
  rw [sources, sources, harguments, List.mapM_append, List.mapM_append]
  exact bind_congr fun _ => by rw [← hnotes h.parameters hdraws]; rfl

/-! ### A note that draws on the body -/

def sourcesUntil (catalog : Catalog) (h : Handler) (notes : List ParameterNote) : List Source :=
  h.arguments.flatMap (argumentSources catalog) ++ notes.flatMap (noteSources h)

theorem input?_of_drawsOn {n : ParameterNote} (hbody : h.bodyArgument? = some body)
    (hn : n.DrawsOn h body) :
    (Source.ofNote h n).input? = some (some body.name, some (n.location.getD .query)) := by
  have hnone := Handler.bodyArgument?_unbound hbody
  obtain ⟨name, hname, hfound⟩ := Option.bind_eq_some_iff.mp hn.names
  have heq := Handler.name_of_argument? hfound hnone
  simp [Source.ofNote, Source.input?, Source.reference, Source.name, Source.location, hn.reference,
    hname, hfound, hnone, heq]

/-- The parameters do not depend on the type of the argument that the request body is
described by, unless a note that names the argument leaves a schema to its type. If the last
note for an input does so, there is a parameter of the argument's name with the schema that
the argument's type has. -/
theorem body_argument_among_parameters (hbody : h.bodyArgument? = some body) :
    ((∀ n ∈ h.parameters, ¬ n.DrawsOn h body) → ∀ t,
      parameters catalog infer (h.withBodyType t) = parameters catalog infer h) ∧
    ∀ earlier n later a ps b, h.parameters = earlier ++ n :: later → n.DrawsOn h body →
      n.content = [] →
      (∀ s ∈ later.flatMap (noteSources h), s.input? ≠ (Source.ofNote h n).input?) →
      (parameters catalog infer h).outcome a = (.ok ps, b) →
      Carries infer a ps (some body.name, some (n.location.getD .query))
        (sourcesUntil catalog h earlier) (Inference.member infer body.type n.schema) := by
  constructor
  · intro hdraws t
    rw [parameters_eq_settled, parameters_eq_settled, sources_withBodyType t hbody hdraws]
  · intro earlier n later a ps b hsplit hn hcontent hlast hrun
    have hinput := input?_of_drawsOn hbody hn
    have hsources : sources catalog h =
        sourcesUntil catalog h earlier ++ Source.ofNote h n :: later.flatMap (noteSources h) := by
      have hone : noteSources h n = [Source.ofNote h n] := by simp [noteSources, hn.visible]
      rw [sources, sourcesUntil, hsplit, List.flatMap_append, List.flatMap_cons, hone,
        List.append_assoc]
      rfl
    have htype : (Source.ofNote h n).type? = some body.type := by
      simp [Source.ofNote, Source.type?, hn.names]
    refine carries_of_last hrun hsources hinput hcontent ?_ fun other hother hsame => ?_
    · rw [htype]
      exact SchemaNote.orOf_typed n.schema body.type
    · exact absurd (hsame.trans hinput.symm) (hlast other hother)

section Witness

def itemCatalog : Catalog := Catalog.ofList [
  { name := "Item", shape := .struct [{ name := "id", type := ⟨"u64", []⟩ }] }]

def payloadArgument : Argument where
  name := "payload"
  type := ⟨"Item", []⟩

def payloadNote : ParameterNote where
  name := some "payload"
  description := some "The item"

def storing (notes : List ParameterNote) : Handler where
  name := "store"
  verb := some .post
  arguments := [{ name := "shop", type := ⟨"u64", []⟩, binding := some ⟨.path, "shop"⟩ },
    payloadArgument]
  parameters := notes

def digestNote : ParameterNote :=
  { payloadNote with location := some .header, schema := some { type := some "string" } }

def storeOutcome : Except Failure (List Parameter) × Arena :=
  (parameters itemCatalog (Inference.schemaOf itemCatalog 9) (storing [payloadNote])).outcome {}

def storeParameters : List Parameter := storeOutcome.1.toOption.getD []

theorem store_described :
    (parameters itemCatalog (Inference.schemaOf itemCatalog 9) (storing [payloadNote])).outcome
      {} = (.ok storeParameters, storeOutcome.2) :=
  Prod.ext (by rfl) rfl

theorem payloadNote_drawsOn : payloadNote.DrawsOn (storing [payloadNote]) payloadArgument :=
  ⟨rfl, rfl, rfl, by simp [ParameterNote.Closed, SchemaNote.Closed, payloadNote]⟩

/-- A digest of the payload in a header has a schema of its own, and a remark on the payload
has the schema of the item. -/
theorem body_argument_among_parameters_store :
    (storing [digestNote]).bodyArgument? = some payloadArgument ∧
    (∀ t, parameters itemCatalog (Inference.schemaOf itemCatalog 9)
        ((storing [digestNote]).withBodyType t) =
      parameters itemCatalog (Inference.schemaOf itemCatalog 9) (storing [digestNote])) ∧
    (storing [payloadNote]).bodyArgument? = some payloadArgument ∧
    payloadNote.DrawsOn (storing [payloadNote]) payloadArgument ∧
    Carries (Inference.schemaOf itemCatalog 9) {} storeParameters (some "payload", some .query)
      (sourcesUntil itemCatalog (storing [payloadNote]) [])
      (Inference.schemaOf itemCatalog 9 ⟨"Item", []⟩) := by
  have hdigest : ∀ n ∈ (storing [digestNote]).parameters,
      ¬ n.DrawsOn (storing [digestNote]) payloadArgument := by
    intro n hn hdraws
    obtain rfl := List.mem_singleton.mp hn
    exact hdraws.isOpen ⟨{ type := some "string" }, rfl, rfl⟩
  exact ⟨rfl, (body_argument_among_parameters rfl).1 hdigest, rfl, payloadNote_drawsOn,
    (body_argument_among_parameters rfl).2 [] payloadNote [] {} storeParameters storeOutcome.2 rfl
      payloadNote_drawsOn rfl (List.forall_mem_nil _) store_described⟩

end Witness

section Counterexample

/-- The payload is a parameter of the query and the content of the body. -/
theorem payload_documented_twice :
    (storing [payloadNote]).bodyArgument? = some payloadArgument ∧
    ((parameters itemCatalog (Inference.schemaOf itemCatalog 9)
      (storing [payloadNote])).outcome {}).1.map (·.map fun p => (p.reference, p.name, p.schema)) =
        .ok [(none, some "shop", some (.ofFormat .integer "int64")),
          (none, some "payload", some (.refTo "Item"))] ∧
    ((requestBody (Inference.schemaOf itemCatalog 9) {} (storing [payloadNote])).outcome {}).1.map
      (·.map fun body => body.content.entries.map fun row => (row.1, row.2.schema)) =
        .ok (some [("*/*", some (.refTo "Item"))]) :=
  ⟨rfl, rfl, rfl⟩

end Counterexample

end Assembly

end ApiDoc
