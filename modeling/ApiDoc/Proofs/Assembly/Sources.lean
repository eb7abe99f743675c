import ApiDoc.Assembly.Parameter
import ApiDoc.Proofs.Outcome

/-!
# What the parameters of a handler are made of

Arguments, fields of bound structs and notes are the sources of a handler's
parameters. Each source gives one parameter for one input, and this alone needs the
inference of types. What is given for the same input is laid over one another, and in
the end each parameter is completed by itself.
-/

set_option autoImplicit false

namespace ApiDoc

open Inference (Gen)

abbrev Input := Option String × Option ParameterLocation

namespace Parameter

def input? (p : Parameter) : Option Input :=
  if p.reference.isSome then none else some (p.name, p.location)

def Exclusive (p : Parameter) : Prop := p.schema = none ∨ p.content.isEmpty

theorem input?_eq_some {p : Parameter} (h : p.reference = none) :
    p.input? = some (p.name, p.location) := by
  simp [input?, h]

end Parameter

theorem Argument.unbound_of_mayBeBody {arg : Argument} (h : arg.mayBeBody) :
    arg.binding = none ∧ arg.parameter = none := by
  simp only [mayBeBody, Bool.and_eq_true, Option.isNone_iff_eq_none] at h
  exact h.1.1

namespace Assembly

/-! ### Parameters laid over one another -/

theorem sameInput_iff {q p : Parameter} :
    sameInput q p ↔ ∃ k, q.input? = some k ∧ p.input? = some k := by
  unfold sameInput Parameter.input?
  cases q.reference <;> cases p.reference <;> simp [@eq_comm _ p.name, @eq_comm _ p.location]

theorem input?_overlay (q p : Parameter) : (overlayParameter q p).input? = q.input? := rfl

def forInput (k : Input) (ps : List Parameter) : List Parameter :=
  ps.filter fun p => p.input? = some k

def layOver (p : Parameter) : List Parameter → List Parameter
  | [] => [p]
  | q :: qs => overlayParameter q p :: qs

theorem forInput_push (k : Input) (p : Parameter) (ps : List Parameter) :
    forInput k (pushParameter p ps) =
      if p.input? = some k then layOver p (forInput k ps) else forInput k ps := by
  induction ps with
  | nil => by_cases hp : p.input? = some k <;> simp [pushParameter, forInput, layOver, hp]
  | cons q qs ih =>
    by_cases hs : sameInput q p
    · obtain ⟨j, hq, hp⟩ := sameInput_iff.mp hs
      have hpush : pushParameter p (q :: qs) = overlayParameter q p :: qs := by
        simp [pushParameter, hs]
      rw [hpush]
      by_cases hk : j = k
      · simp [forInput, input?_overlay, hq, hp, hk, layOver]
      · simp [forInput, input?_overlay, hq, hp, hk]
    · have hpush : pushParameter p (q :: qs) = q :: pushParameter p qs := by
        simp [pushParameter, hs]
      have hdiffer : p.input? = some k → q.input? ≠ some k := fun hp hq =>
        hs (sameInput_iff.mpr ⟨k, hq, hp⟩)
      rw [hpush]
      unfold forInput at ih ⊢
      by_cases hp : p.input? = some k
      · simp [ih, hp, hdiffer hp]
      · by_cases hq : q.input? = some k <;> simp [ih, hp, hq]

def collect (ps : List Parameter) : List Parameter :=
  ps.foldl (fun qs p => pushParameter p qs) []

theorem forInput_foldl_push (k : Input) (ps qs : List Parameter) :
    forInput k (ps.foldl (fun qs p => pushParameter p qs) qs) =
      (forInput k ps).foldl (fun qs p => layOver p qs) (forInput k qs) := by
  induction ps generalizing qs with
  | nil => rfl
  | cons p ps ih =>
    rw [List.foldl_cons, ih, forInput_push]
    by_cases hp : p.input? = some k <;> simp [forInput, hp]

theorem foldl_layOver (q : Parameter) (ps : List Parameter) :
    ps.foldl (fun qs p => layOver p qs) [q] = [ps.foldl overlayParameter q] := by
  induction ps generalizing q with
  | nil => rfl
  | cons p ps ih => exact ih (overlayParameter q p)

theorem forInput_collect_nil {k : Input} {ps : List Parameter} (h : forInput k ps = []) :
    forInput k (collect ps) = [] := by
  rw [collect, forInput_foldl_push, h]
  rfl

/-- All that is given for an input ends in one parameter. -/
theorem forInput_collect_cons {k : Input} {ps qs : List Parameter} {q : Parameter}
    (h : forInput k ps = q :: qs) :
    forInput k (collect ps) = [qs.foldl overlayParameter q] := by
  rw [collect, forInput_foldl_push, h]
  exact foldl_layOver q qs

/-- References are neither laid over one another nor dropped. -/
theorem references_collect (ps : List Parameter) :
    (collect ps).filter (·.input?.isNone) = ps.filter (·.input?.isNone) := by
  have hpush : ∀ (p : Parameter) (qs : List Parameter),
      (pushParameter p qs).filter (·.input?.isNone) =
        qs.filter (·.input?.isNone) ++ [p].filter (·.input?.isNone) := by
    intro p qs
    induction qs with
    | nil => rfl
    | cons q qs ih =>
      by_cases hs : sameInput q p
      · obtain ⟨k, hq, hp⟩ := sameInput_iff.mp hs
        simp [pushParameter, hs, input?_overlay, hq, hp]
      · simp [pushParameter, hs, List.filter_cons, ih]
        split <;> rfl
  have hrun : ∀ qs, (ps.foldl (fun qs p => pushParameter p qs) qs).filter (·.input?.isNone) =
      qs.filter (·.input?.isNone) ++ ps.filter (·.input?.isNone) := by
    induction ps with
    | nil => simp
    | cons p ps ih =>
      intro qs
      rw [List.foldl_cons, ih, hpush, List.append_assoc, ← List.filter_append]
      rfl
  exact hrun []

/-! ### Sources -/

inductive Source where
  /-- A note, with the type of the argument that it belongs to or names, and with the
  name and the place that it takes where it gives none. -/
  | noted (n : ParameterNote) (type : Option TypeExpr) (name : Option String)
      (location : ParameterLocation)
  /-- A field of a struct that is bound as a whole. -/
  | field (location : ParameterLocation) (f : FieldDecl)
  /-- A bound argument. -/
  | bound (type : TypeExpr) (b : Binding)

namespace Source

def reference : Source → Option String
  | noted n _ _ _ => n.reference
  | field _ _ | bound _ _ => none

def name : Source → Option String
  | noted n _ name _ => n.name.or name
  | field _ f => some f.wireName
  | bound _ b => some b.name

def location : Source → ParameterLocation
  | noted n _ _ location => n.location.getD location
  | field location _ => location
  | bound _ b => b.location

def input? (s : Source) : Option Input :=
  if s.reference.isSome then none else some (s.name, some s.location)

def content : Source → List ContentNote
  | noted n _ _ _ => n.content
  | field _ _ | bound _ _ => []

def schemaNote : Source → Option SchemaNote
  | noted n _ _ _ => n.schema
  | field _ f => f.schema
  | bound _ _ => none

def type? : Source → Option TypeExpr
  | noted _ type _ _ => type
  | field _ f => some f.type
  | bound type _ => some type

def node (infer : TypeExpr → Gen Schema) : Source → Gen Parameter
  | noted n type name location => do
    let p ← n.node infer type
    pure (if p.reference.isSome then p
      else { p with
        name := p.name.or name
        location := some (p.location.getD location) })
  | field location f => fieldParameter infer location f
  | bound type b => boundParameter infer type b

def Declares (s : Source) (n : SchemaNote) : Prop :=
  s.reference = none ∧ s.content = [] ∧ s.schemaNote = some n ∧ n.replacesInference

def declaresNothing (s : Source) : Bool := s.content.isEmpty && s.schemaNote.isNone

def isSilent (s : Source) : Bool := s.declaresNothing && s.type?.isNone

def ofNoted (a : Argument) (n : ParameterNote) : Source :=
  .noted n (some a.type) (some ((a.binding.map (·.name)).getD a.name))
    ((a.binding.map (·.location)).getD .query)

def ofNote (h : Handler) (n : ParameterNote) : Source :=
  let named := n.name.bind h.argument?
  .noted n (named.map (·.type)) none (((named.bind (·.binding)).map (·.location)).getD .query)

end Source

def argumentSources (catalog : Catalog) (a : Argument) : List Source :=
  if a.injected || a.suspended then []
  else
    match a.parameter, a.binding with
    | some n, _ => if n.hidden then [] else [.ofNoted a n]
    | none, none => []
    | none, some b =>
      match bagFields? catalog a.type with
      | some fields => (fields.filter fun f => !f.isAbsent).map (.field b.location)
      | none => [.bound a.type b]

/-- An argument that is left over for the body is not a parameter by itself. -/
theorem argumentSources_mayBeBody {catalog : Catalog} {arg : Argument} (h : arg.mayBeBody) :
    argumentSources catalog arg = [] := by
  obtain ⟨hbinding, hparameter⟩ := Argument.unbound_of_mayBeBody h
  unfold argumentSources
  rw [hbinding, hparameter]
  split <;> rfl

def noteSources (h : Handler) (n : ParameterNote) : List Source :=
  if n.hidden then [] else [.ofNote h n]

def sources (catalog : Catalog) (h : Handler) : List Source :=
  h.arguments.flatMap (argumentSources catalog) ++ h.parameters.flatMap (noteSources h)

section Push

variable (infer : TypeExpr → Gen Schema)

def pushSource (ps : List Parameter) (s : Source) : Gen (List Parameter) := do
  let p ← s.node infer
  pure (pushParameter p ps)

theorem notedParameter_eq (a : Argument) (n : ParameterNote) :
    notedParameter infer a n = (Source.ofNoted a n).node infer := by
  refine bind_congr fun p => ?_
  cases p.name <;> cases p.location <;> rfl

theorem pushArgument_eq (catalog : Catalog) (ps : List Parameter) (a : Argument) :
    pushArgument catalog infer ps a = (argumentSources catalog a).foldlM (pushSource infer) ps := by
  unfold pushArgument argumentSources
  split
  · rfl
  · cases hn : a.parameter with
    | some n =>
      by_cases hh : n.hidden
      · simp [hh]
      · simp [hh, pushSource, notedParameter_eq]
    | none =>
      cases hb : a.binding with
      | none => rfl
      | some b =>
        cases hf : bagFields? catalog a.type with
        | none => simp [pushSource, Source.node]
        | some fields =>
          dsimp only
          rw [List.foldlM_map]
          rfl

theorem pushNote_eq (h : Handler) (ps : List Parameter) (n : ParameterNote) :
    pushNote infer h ps n = (noteSources h n).foldlM (pushSource infer) ps := by
  unfold pushNote noteSources
  by_cases hh : n.hidden
  · simp [hh]
  · simp only [hh, Bool.false_eq_true, ↓reduceIte, List.foldlM_cons, List.foldlM_nil, bind_pure,
      pushSource, Source.ofNote, Source.node, bind_assoc, pure_bind]
    refine bind_congr fun p => ?_
    cases p.name <;> cases p.location <;> rfl

theorem foldlM_flatMap {α : Type} {f : α → List Source}
    {push : List Parameter → α → Gen (List Parameter)}
    (h : ∀ ps x, push ps x = (f x).foldlM (pushSource infer) ps) (xs : List α)
    (ps : List Parameter) :
    xs.foldlM push ps = (xs.flatMap f).foldlM (pushSource infer) ps := by
  induction xs generalizing ps with
  | nil => rfl
  | cons x xs ih =>
    rw [List.foldlM_cons, List.flatMap_cons, List.foldlM_append, h]
    exact bind_congr fun qs => ih qs

/-- First the parameter of each source is made, then they are laid over one another. -/
theorem parameters_eq (catalog : Catalog) (h : Handler) :
    parameters catalog infer h =
      ExceptT.paired (Source.node infer) (sources catalog h) >>= fun made =>
        completeAll infer h (collect (made.map (·.2))) := by
  have hpush : (sources catalog h).foldlM (pushSource infer) [] =
      ExceptT.paired (Source.node infer) (sources catalog h) >>= fun made =>
        pure (collect (made.map (·.2))) := by
    simp only [collect, List.foldl_map]
    exact ExceptT.foldlM_eq_paired (Source.node infer) (fun ps _ p => pushParameter p ps) _ []
  rw [parameters, foldlM_flatMap infer (pushArgument_eq infer catalog)]
  simp only [foldlM_flatMap infer (pushNote_eq infer h)]
  rw [← bind_assoc, ← List.foldlM_append, ← sources, hpush, bind_assoc]
  exact bind_congr fun made => pure_bind _ _

end Push

end Assembly

end ApiDoc
