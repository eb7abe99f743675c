import Mathlib.Logic.Relation
import ApiDoc.Proofs.Inference.Termination
import ApiDoc.Proofs.Assembly.Responses

/-!
# The response of a handler without notes

Nothing is noted about the responses of a handler, so its return type decides on the one
response that it has. Wrappers around the body are looked through, in any number and order,
and so is one wrapper of what is delivered later: what counts is the innermost type.
-/

set_option autoImplicit false

namespace ApiDoc

def Handler.returning (h : Handler) (t : TypeExpr) : Handler := { h with returnType := some t }

namespace Assembly

open Inference (Gen Arena)

/-! ### Wrappers -/

inductive Wrapper where
  | result (rest : List TypeExpr)
  | json (rest : List TypeExpr)
  | form (rest : List TypeExpr)
  | tuple (before : List TypeExpr)

namespace Wrapper

def name : Wrapper → String
  | .result _ => "Result"
  | .json _ => "Json"
  | .form _ => "Form"
  | .tuple _ => TypeExpr.tupleName

def around (w : Wrapper) (t : TypeExpr) : TypeExpr :=
  match w with
  | .result rest | .json rest | .form rest => ⟨w.name, t :: rest⟩
  | .tuple before => ⟨w.name, before ++ [t]⟩

end Wrapper

def wrapped (ws : List Wrapper) (t : TypeExpr) : TypeExpr := ws.foldr Wrapper.around t

inductive Defers : TypeExpr → TypeExpr → Prop
  | named {name : String} {t : TypeExpr} (before : List TypeExpr)
    (h : name ∈ TypeExpr.deferredNames) : Defers ⟨name, before ++ [t]⟩ t
  | pinned {t : TypeExpr} (rest others : List TypeExpr) :
    Defers ⟨"Pin", ⟨"Future", t :: rest⟩ :: others⟩ t
  | boxed {t : TypeExpr} (rest others more : List TypeExpr) :
    Defers ⟨"Pin", ⟨"Box", ⟨"Future", t :: rest⟩ :: others⟩ :: more⟩ t

inductive IsDeferral : TypeExpr → Prop
  | named {t : TypeExpr} (h : t.name ∈ TypeExpr.deferredNames) : IsDeferral t
  | pinned (args others : List TypeExpr) : IsDeferral ⟨"Pin", ⟨"Future", args⟩ :: others⟩
  | boxed (args others more : List TypeExpr) :
    IsDeferral ⟨"Pin", ⟨"Box", ⟨"Future", args⟩ :: others⟩ :: more⟩

section Delivered

variable {s t : TypeExpr}

theorem delivered_named {name : String} {args : List TypeExpr} (h : name ∈ TypeExpr.deferredNames) :
    (⟨name, args⟩ : TypeExpr).delivered = args.getLast?.getD ⟨name, args⟩ := by
  have hpin : name ≠ "Pin" := by
    rintro rfl
    exact absurd h (by decide)
  rw [TypeExpr.delivered, if_neg hpin, if_pos (List.contains_iff_mem.mpr h)]

theorem Defers.delivered_eq (h : Defers s t) : s.delivered = t := by
  cases h with
  | named before h => rw [delivered_named h, List.getLast?_concat, Option.getD_some]
  | pinned rest others => rfl
  | boxed rest others more => rfl

/-- Only futures are taken out of a pin. -/
theorem pinned?_eq_none (h : ¬ IsDeferral t) (hname : t.name = "Pin") : t.pinned? = none := by
  obtain ⟨name, args⟩ := t
  obtain rfl : name = "Pin" := hname
  cases args with
  | nil => rfl
  | cons inner others =>
    obtain ⟨innerName, innerArgs⟩ := inner
    have hfuture : innerName ≠ "Future" := by
      rintro rfl
      exact h (.pinned innerArgs others)
    by_cases hbox : innerName = "Box"
    · subst hbox
      cases innerArgs with
      | nil => rfl
      | cons boxed rest =>
        obtain ⟨boxedName, boxedArgs⟩ := boxed
        have hboxed : boxedName ≠ "Future" := by
          rintro rfl
          exact h (.boxed boxedArgs rest others)
        simp [TypeExpr.pinned?, TypeExpr.firstArg?, hboxed]
    · simp [TypeExpr.pinned?, TypeExpr.firstArg?, hbox, hfuture]

theorem delivered_eq_self (h : ¬ IsDeferral t) : t.delivered = t := by
  have hnamed : TypeExpr.deferredNames.contains t.name = false :=
    Bool.eq_false_iff.mpr fun hname => h (.named (List.contains_iff_mem.mp hname))
  rw [TypeExpr.delivered]
  split
  · rename_i hname
    rw [pinned?_eq_none h hname, Option.getD_none]
  · rw [if_neg (by rw [hnamed]; exact Bool.false_ne_true)]

theorem IsDeferral.name_mem (h : IsDeferral t) : t.name ∈ "Pin" :: TypeExpr.deferredNames := by
  cases h with
  | named h => exact List.mem_cons_of_mem _ h
  | pinned | boxed => exact List.mem_cons_self

theorem Wrapper.name_around (w : Wrapper) (t : TypeExpr) : (w.around t).name = w.name := by
  cases w <;> rfl

theorem not_isDeferral_around (w : Wrapper) (t : TypeExpr) : ¬ IsDeferral (w.around t) := by
  intro h
  have hname := h.name_mem
  rw [w.name_around] at hname
  cases w <;> simp [Wrapper.name, TypeExpr.deferredNames, TypeExpr.tupleName] at hname

theorem not_isDeferral_wrapped (ws : List Wrapper) (h : ¬ IsDeferral t) :
    ¬ IsDeferral (wrapped ws t) := by
  cases ws with
  | nil => exact h
  | cons w ws => exact not_isDeferral_around w _

end Delivered

variable {catalog : Catalog}

/-- One wrapper that is not the name of a declared type is taken off: from a tuple its last
member is left, from the others their first argument. -/
inductive Peels (catalog : Catalog) : TypeExpr → TypeExpr → Prop
  | around {w : Wrapper} {t : TypeExpr} (h : catalog.contains w.name = false) :
    Peels catalog (w.around t) t

structure Innermost (catalog : Catalog) (t u : TypeExpr) : Prop where
  peeled : Relation.ReflTransGen (Peels catalog) t u
  bare : ∀ v, ¬ Peels catalog u v

section Peeling

variable {t u : TypeExpr}

theorem peels_wrapped {ws : List Wrapper} (h : ∀ w ∈ ws, catalog.contains w.name = false)
    (t : TypeExpr) : Relation.ReflTransGen (Peels catalog) (wrapped ws t) t := by
  induction ws with
  | nil => exact .refl
  | cons w ws ih =>
    obtain ⟨hw, hws⟩ := List.forall_mem_cons.mp h
    exact .head (.around hw) (ih hws)

theorem peels_body {name : String} {rest : List TypeExpr} (hname : name ∈ bodyWrappers)
    (h : catalog.contains name = false) : Peels catalog ⟨name, t :: rest⟩ t := by
  simp only [bodyWrappers, List.mem_cons, List.not_mem_nil, or_false] at hname
  rcases hname with rfl | rfl | rfl
  · exact .around (w := .result rest) h
  · exact .around (w := .json rest) h
  · exact .around (w := .form rest) h

theorem lastReturned_concat (before : List TypeExpr) (t : TypeExpr) :
    lastReturned catalog (before ++ [t]) = some (returned catalog t) := by
  induction before with
  | nil => rw [List.nil_append, lastReturned]
  | cons s before ih =>
    cases before with
    | nil => rw [List.singleton_append, lastReturned, lastReturned]
    | cons next before =>
      rw [List.cons_append, List.cons_append, lastReturned, ← List.cons_append, ih]

theorem Peels.returned_eq (h : Peels catalog t u) : returned catalog t = returned catalog u := by
  obtain @⟨w, _, h⟩ := h
  have hundeclared : ¬ catalog.contains w.name = true := Bool.not_eq_true _ ▸ h
  cases w with
  | tuple before =>
    have hname : (Wrapper.tuple before).name = TypeExpr.tupleName := rfl
    rw [Wrapper.around, returned, if_neg hundeclared, if_pos hname, lastReturned_concat,
      Option.getD_some]
  | result rest | json rest | form rest =>
    rw [Wrapper.around, returned, if_neg hundeclared, if_neg, if_pos, firstReturned,
      Option.getD_some]
    · rfl
    · simp [Wrapper.name, TypeExpr.tupleName]

theorem returned_of_peeled (h : Relation.ReflTransGen (Peels catalog) t u) :
    returned catalog t = returned catalog u := by
  induction h using Relation.ReflTransGen.head_induction_on with
  | refl => rfl
  | head hstep _ ih => rw [hstep.returned_eq, ih]

/-- A declared type is never taken apart. -/
theorem bare_of_declared (h : catalog.contains t.name = true) : ∀ v, ¬ Peels catalog t v := by
  intro v hv
  cases hv with
  | @around w v hw =>
    rw [w.name_around, hw] at h
    cases h

theorem mem_args_around (w : Wrapper) (t : TypeExpr) : t ∈ (w.around t).args := by
  cases w <;> simp [Wrapper.around]

theorem exists_innermost (catalog : Catalog) (t : TypeExpr) : ∃ u, Innermost catalog t u := by
  by_cases hbare : ∀ v, ¬ Peels catalog t v
  · exact ⟨t, .refl, hbare⟩
  · obtain ⟨v, hv⟩ := not_forall_not.mp hbare
    have hlt : v.height < t.height := by
      cases hv
      exact TypeExpr.height_lt (mem_args_around _ _)
    obtain ⟨u, hu⟩ := exists_innermost catalog v
    exact ⟨u, .head hv hu.peeled, hu.bare⟩
termination_by t.height

end Peeling

/-! ### What the innermost type says -/

def IsNothing (catalog : Catalog) (u : TypeExpr) : Prop :=
  u.isUnit = true ∧ catalog.contains u.name = false

/-- The type describes a body: it is a declared one or none of the responders of which
nothing is known. -/
def IsBody (catalog : Catalog) (u : TypeExpr) : Prop :=
  ¬ IsNothing catalog u ∧ (catalog.contains u.name = true ∨ u.name ∉ untypedResponders)

def Remains (catalog : Catalog) (h : Handler) : Option TypeExpr → Prop
  | none => h.returnType = none
  | some u => ∃ t, h.returnType = some t ∧ Innermost catalog t.delivered u

theorem exists_remains (catalog : Catalog) (h : Handler) : ∃ inner, Remains catalog h inner := by
  cases ht : h.returnType with
  | none => exact ⟨none, ht⟩
  | some t =>
    obtain ⟨u, hu⟩ := exists_innermost catalog t.delivered
    exact ⟨some u, t, ht, hu⟩

section Kinds

variable {u : TypeExpr}

/-- A type from which nothing can be taken off is nothing, a body, or unknown. -/
theorem returned_bare (hbare : ∀ v, ¬ Peels catalog u v) :
    (IsNothing catalog u ∧ ¬ IsBody catalog u ∧ returned catalog u = .nothing) ∨
    (¬ IsNothing catalog u ∧ IsBody catalog u ∧ returned catalog u = .typed u) ∨
    (¬ IsNothing catalog u ∧ ¬ IsBody catalog u ∧ returned catalog u = .untyped) := by
  obtain ⟨name, args⟩ := u
  rw [returned]
  by_cases hdeclared : catalog.contains name = true
  · have hsome : ¬ IsNothing catalog ⟨name, args⟩ := fun h =>
      absurd (hdeclared.symm.trans h.2) (by decide)
    exact Or.inr (Or.inl ⟨hsome, ⟨hsome, Or.inl hdeclared⟩, if_pos hdeclared⟩)
  have hundeclared : catalog.contains name = false := Bool.not_eq_true _ ▸ hdeclared
  rw [if_neg hdeclared]
  by_cases htuple : name = TypeExpr.tupleName
  · subst htuple
    obtain rfl : args = [] := by
      rcases List.eq_nil_or_concat' args with hnil | ⟨before, t, rfl⟩
      · exact hnil
      · exact absurd (.around (w := .tuple before) hundeclared) (hbare t)
    have hnothing : IsNothing catalog ⟨TypeExpr.tupleName, []⟩ := ⟨rfl, hundeclared⟩
    exact Or.inl ⟨hnothing, fun h => h.1 hnothing, if_pos rfl⟩
  have hsome : ¬ IsNothing catalog ⟨name, args⟩ := by simp [IsNothing, TypeExpr.isUnit, htuple]
  rw [if_neg htuple]
  by_cases hbody : bodyWrappers.contains name = true
  · have hmem := List.contains_iff_mem.mp hbody
    have hknown : name ∉ untypedResponders := by
      intro hname
      simp only [bodyWrappers, List.mem_cons, List.not_mem_nil, or_false] at hmem
      rcases hmem with rfl | rfl | rfl <;> exact absurd hname (by decide)
    obtain rfl : args = [] := by
      cases args with
      | nil => rfl
      | cons t rest => exact absurd (peels_body hmem hundeclared) (hbare t)
    rw [if_pos hbody]
    exact Or.inr (Or.inl ⟨hsome, ⟨hsome, Or.inr hknown⟩, rfl⟩)
  rw [if_neg hbody]
  by_cases huntyped : untypedResponders.contains name = true
  · have hbare : ¬ IsBody catalog ⟨name, args⟩ := by
      rintro ⟨-, h | h⟩
      · exact hdeclared h
      · exact h (List.contains_iff_mem.mp huntyped)
    exact Or.inr (Or.inr ⟨hsome, hbare, if_pos huntyped⟩)
  · have hknown : name ∉ untypedResponders := fun h => huntyped (List.contains_iff_mem.mpr h)
    exact Or.inr (Or.inl ⟨hsome, ⟨hsome, Or.inr hknown⟩, if_neg huntyped⟩)

end Kinds

section Synthesis

variable {infer : TypeExpr → Gen Schema} {e : Endpoint} {h : Handler} {inner : Option TypeExpr}

/-- Nothing is returned, or a body, or something unknown. -/
theorem returnedBy_cases (hr : Remains catalog h inner) :
    ((∀ u ∈ inner, IsNothing catalog u ∧ ¬ IsBody catalog u) ∧ returnedBy catalog h = .nothing) ∨
    ∃ u, inner = some u ∧ ¬ IsNothing catalog u ∧
      (IsBody catalog u ∧ returnedBy catalog h = .typed u ∨
        ¬ IsBody catalog u ∧ returnedBy catalog h = .untyped) := by
  cases inner with
  | none =>
    have hr : h.returnType = none := hr
    exact Or.inl ⟨fun u hu => (Option.not_mem_none u hu).elim, by rw [returnedBy, hr]⟩
  | some u =>
    obtain ⟨t, ht, hinner⟩ := hr
    have hkind : returnedBy catalog h = returned catalog u := by
      rw [returnedBy, ht]
      exact returned_of_peeled hinner.peeled
    rw [hkind]
    rcases returned_bare hinner.bare with ⟨hnothing, hbody, hu⟩ | ⟨hnothing, hbody, hu⟩ |
      ⟨hnothing, hbody, hu⟩
    · refine Or.inl ⟨fun v hv => ?_, hu⟩
      rw [← Option.mem_some_iff.mp hv]
      exact ⟨hnothing, hbody⟩
    · exact Or.inr ⟨u, rfl, hnothing, Or.inl ⟨hbody, hu⟩⟩
    · exact Or.inr ⟨u, rfl, hnothing, Or.inr ⟨hbody, hu⟩⟩

theorem onlyResponse_eq (status : String) (content : Content) : onlyResponse status content =
    { entries := .ofRows [(status, {
        description := some (ResponseNote.defaultDescription status), content })]
      designated := some status } := by
  have hown : (Ordered.ofRows [(status, ({
      description := some (ResponseNote.defaultDescription status)
      content } : Response))]).contains status = true := by
    rw [Ordered.contains, Ordered.get?_ofRows]
    simp
  rw [onlyResponse, Responses.designate, if_pos hown]

def AnswersItself (h : Handler) : Prop := ∀ x ∈ h.arguments, x.suspended = false

def silentStatus (h : Handler) : String := if h.arguments.any (·.suspended) then "200" else "204"

theorem silentStatus_eq_iff : silentStatus h = "204" ↔ AnswersItself h := by
  have hsuspended : h.arguments.any (·.suspended) = false ↔ AnswersItself h := by
    simp [AnswersItself]
  rw [silentStatus, ← hsuspended]
  cases h.arguments.any (·.suspended) <;> simp

theorem silentStatus_eq_or (h : Handler) : silentStatus h = "204" ∨ silentStatus h = "200" := by
  rw [silentStatus]
  split
  · exact Or.inr rfl
  · exact Or.inl rfl

def synthesized (infer : TypeExpr → Gen Schema) (e : Endpoint) (h : Handler) :
    Returned → Gen Responses
  | .nothing => pure (onlyResponse (silentStatus h) {})
  | .untyped => pure (onlyResponse "200" {})
  | .typed t => do
    let content ← ContentNote.inferred infer (orInherited h.produces e.produces) t
    pure (onlyResponse "200" content)

theorem responses_unnoted (hown : h.responses = []) (hinherited : e.responses = []) :
    responses catalog infer e h = synthesized infer e h (returnedBy catalog h) := by
  have hnotes : responseNotes e h = [] := responseNotes_eq_nil.mpr ⟨hown, hinherited⟩
  simp only [responses, hnotes]
  cases returnedBy catalog h <;> rfl

theorem returned_wrapped {t outer : TypeExpr} {ws : List Wrapper} (ht : ¬ IsDeferral t)
    (hws : ∀ w ∈ ws, catalog.contains w.name = false)
    (houter : outer = wrapped ws t ∨ Defers outer (wrapped ws t)) :
    returned catalog outer.delivered = returned catalog t.delivered := by
  have hdelivered : outer.delivered = wrapped ws t := by
    rcases houter with rfl | hdefers
    · exact delivered_eq_self (not_isDeferral_wrapped ws ht)
    · exact hdefers.delivered_eq
  rw [hdelivered, delivered_eq_self ht]
  exact returned_of_peeled (peels_wrapped hws t)

def producedTypes (e : Endpoint) (h : Handler) : List String :=
  match orInherited h.produces e.produces with
  | [] => [anyMediaType]
  | produces => produces.eraseDups

theorem keys_inferred {t : TypeExpr} {content : Content} {a b : Arena}
    (hc : (ContentNote.inferred infer (orInherited h.produces e.produces) t).outcome a =
      (.ok content, b)) :
    ∃ s, (infer t).outcome a = (.ok s, b) ∧ content.keys = producedTypes e h ∧
      content.All fun media => media = .ofSchema s := by
  obtain ⟨s, a', hs, hc⟩ := ExceptT.outcome_bind_eq_ok hc
  cases hc
  refine ⟨s, hs, ?_, Ordered.all_ofRows fun row hrow => ?_⟩
  · rw [Ordered.keys_ofRows, List.map_map, producedTypes]
    cases orInherited h.produces e.produces with
    | nil => rfl
    | cons m ms => exact congrArg List.eraseDups (List.map_id _)
  · obtain ⟨m, -, rfl⟩ := List.mem_map.mp hrow
    rfl

/-- Without notes, wrappers around what a handler returns make no difference, in whatever
number and order, and neither does one wrapper of what is delivered later. If there is an
answer, it is one response, which is the default: with status 204 where the handler answers
itself and returns nothing, and 200 otherwise, with content where the innermost type is that
of a body. -/
theorem wrappers_looked_through (hown : h.responses = []) (hinherited : e.responses = []) :
    (∀ (t outer : TypeExpr) (ws : List Wrapper), ¬ IsDeferral t →
      (∀ w ∈ ws, catalog.contains w.name = false) →
      outer = wrapped ws t ∨ Defers outer (wrapped ws t) →
      responses catalog infer e (h.returning outer) = responses catalog infer e (h.returning t)) ∧
    (∃ inner, Remains catalog h inner) ∧
    ∀ inner r a b, Remains catalog h inner →
      (responses catalog infer e h).outcome a = (.ok r, b) →
      ∃ status response,
        r = { entries := .ofRows [(status, response)], designated := some status } ∧
        (status = "204" ∨ status = "200") ∧
        (status = "204" ↔ AnswersItself h ∧ ∀ u ∈ inner, IsNothing catalog u) ∧
        (∀ u ∈ inner, IsBody catalog u → ∃ s, (infer u).outcome a = (.ok s, b) ∧
          response.content.keys = producedTypes e h ∧
          response.content.All fun media => media = .ofSchema s) ∧
        ((∀ u ∈ inner, ¬ IsBody catalog u) → response.content = {}) := by
  refine ⟨fun t outer ws ht hws houter => ?_, exists_remains catalog h, ?_⟩
  · rw [responses_unnoted (h := h.returning outer) hown hinherited,
      responses_unnoted (h := h.returning t) hown hinherited]
    have hkind : returnedBy catalog (h.returning outer) = returnedBy catalog (h.returning t) :=
      returned_wrapped ht hws houter
    rw [hkind]
    cases returnedBy catalog (h.returning t) <;> rfl
  · intro inner r a b hr hok
    rw [responses_unnoted hown hinherited] at hok
    rcases returnedBy_cases hr with ⟨hnone, hk⟩ | ⟨u, rfl, hsome, ⟨hbody, hk⟩ | ⟨hbody, hk⟩⟩
    · rw [hk] at hok
      obtain ⟨rfl, rfl⟩ := ExceptT.outcome_pure_eq_ok hok
      refine ⟨_, _, onlyResponse_eq _ _, silentStatus_eq_or h, ?_, fun u hu hbody => ?_,
        fun _ => rfl⟩
      · rw [silentStatus_eq_iff]
        exact ⟨fun hanswers => ⟨hanswers, fun u hu => (hnone u hu).1⟩, And.left⟩
      · exact absurd hbody (hnone u hu).2
    · rw [hk] at hok
      obtain ⟨content, b', hcontent, hok⟩ := ExceptT.outcome_bind_eq_ok hok
      obtain ⟨rfl, rfl⟩ := ExceptT.outcome_pure_eq_ok hok
      refine ⟨_, _, onlyResponse_eq _ _, Or.inr rfl, ?_, fun v hv _ => ?_, fun hnot => ?_⟩
      · exact ⟨fun h => absurd h (by decide), fun h => absurd (h.2 u rfl) hsome⟩
      · obtain rfl := Option.mem_some_iff.mp hv
        exact keys_inferred hcontent
      · exact absurd hbody (hnot u rfl)
    · rw [hk] at hok
      obtain ⟨rfl, rfl⟩ := ExceptT.outcome_pure_eq_ok hok
      refine ⟨_, _, onlyResponse_eq _ _, Or.inr rfl, ?_, fun v hv hv' => ?_, fun _ => rfl⟩
      · exact ⟨fun h => absurd h (by decide), fun h => absurd (h.2 u rfl) hsome⟩
      · obtain rfl := Option.mem_some_iff.mp hv
        exact absurd hv' hbody

end Synthesis

section Witness

def partCatalog : Catalog :=
  .ofRows [("Part", { name := "Part", shape := .struct [{ name := "id", type := ⟨"u64", []⟩ }] })]

def partType : TypeExpr := ⟨"Part", []⟩

def partWrappers : List Wrapper :=
  [.result [⟨"Error", []⟩], .tuple [⟨"StatusCode", []⟩], .json []]

def partFuture : TypeExpr := ⟨"BoxFuture", [wrapped partWrappers partType]⟩

def partHandler : Handler where
  name := "part"
  returnType := some partFuture
  produces := ["application/json", "text/xml", "application/json"]

def partOutcome : Except Failure Responses × Arena :=
  (responses partCatalog (Inference.schemaOf partCatalog 9) {} partHandler).outcome {}

def partResponses : Responses := partOutcome.1.toOption.getD {}

theorem part_described :
    (responses partCatalog (Inference.schemaOf partCatalog 9) {} partHandler).outcome {} =
      (.ok partResponses, partOutcome.2) :=
  Prod.ext (by rfl) rfl

theorem wrappers_looked_through_part :
    ¬ IsDeferral partType ∧ (∀ w ∈ partWrappers, partCatalog.contains w.name = false) ∧
    Defers partFuture (wrapped partWrappers partType) ∧
    responses partCatalog (Inference.schemaOf partCatalog 9) {} (partHandler.returning partFuture) =
      responses partCatalog (Inference.schemaOf partCatalog 9) {} (partHandler.returning partType) ∧
    Remains partCatalog partHandler (some partType) ∧
    ∃ status response,
      partResponses = { entries := .ofRows [(status, response)], designated := some status } ∧
      (status = "204" ∨ status = "200") ∧
      (status = "204" ↔ AnswersItself partHandler ∧
        ∀ u ∈ some partType, IsNothing partCatalog u) ∧
      response.content.keys = ["application/json", "text/xml"] := by
  have hpart : ¬ IsDeferral partType := fun h => absurd h.name_mem (by decide)
  have hundeclared : ∀ w ∈ partWrappers, partCatalog.contains w.name = false := by decide
  have hfuture : Defers partFuture (wrapped partWrappers partType) := .named [] (by decide)
  have hbody : IsBody partCatalog partType := ⟨fun h => absurd h.1 (by decide), Or.inl (by decide)⟩
  have hremains : Remains partCatalog partHandler (some partType) :=
    ⟨partFuture, rfl, peels_wrapped hundeclared partType, bare_of_declared (by decide)⟩
  have hall := @wrappers_looked_through partCatalog (Inference.schemaOf partCatalog 9) {}
    partHandler rfl rfl
  obtain ⟨status, response, hr, hstatus, hsilent, hcontent, -⟩ :=
    hall.2.2 _ _ _ _ hremains part_described
  obtain ⟨s, -, hkeys, -⟩ := hcontent partType rfl hbody
  exact ⟨hpart, hundeclared, hfuture,
    hall.1 partType partFuture partWrappers hpart hundeclared (Or.inr hfuture), hremains, status,
    response, hr, hstatus, hsilent, hkeys.trans (by decide)⟩

end Witness

end Assembly

end ApiDoc
