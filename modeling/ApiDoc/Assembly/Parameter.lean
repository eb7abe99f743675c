import ApiDoc.Endpoint
import ApiDoc.Node.Payload

/-!
# The parameters of a handler

Arguments come first, in their order, then the notes of the handler itself.
A parameter with the name and location of an earlier one is laid over it. An
argument of a struct type stands for one parameter for each field.
-/

set_option autoImplicit false

namespace ApiDoc.Assembly

open Inference (Gen)

def sameInput (a b : Parameter) : Bool :=
  a.reference.isNone && b.reference.isNone && a.name = b.name && a.location = b.location

/-- Later keywords win; content takes the place of a schema. -/
def overlayParameter (lower upper : Parameter) : Parameter :=
  { lower with
    description := upper.description.or lower.description
    required := upper.required.or lower.required
    deprecated := upper.deprecated.or lower.deprecated
    allowEmptyValue := upper.allowEmptyValue.or lower.allowEmptyValue
    style := upper.style.or lower.style
    explode := upper.explode.or lower.explode
    allowReserved := upper.allowReserved.or lower.allowReserved
    schema := if upper.content.isEmpty then upper.schema.or lower.schema else none
    sample := upper.sample.or lower.sample
    examples := lower.examples.putAll upper.examples.entries
    content := if upper.content.isEmpty then lower.content else upper.content
    extensions := lower.extensions.putAll upper.extensions.entries }

def pushParameter (p : Parameter) : List Parameter → List Parameter
  | [] => [p]
  | q :: qs => if sameInput q p then overlayParameter q p :: qs else q :: pushParameter p qs

def bagFields? (catalog : Catalog) (t : TypeExpr) : Option (List FieldDecl) :=
  match catalog.get? t.name with
  | none => none
  | some d =>
    match d.fields? with
    | none | some [] => none
    | some fields =>
      let bindings := d.bindings t.args
      some (fields.map fun f => { f with type := f.type.substitute bindings })

def fieldParameter (infer : TypeExpr → Gen Schema) (location : ParameterLocation)
    (f : FieldDecl) : Gen Parameter := do
  let schema ← Inference.member infer f.type f.schema
  pure {
    name := some f.wireName
    location := some location
    description := f.schema.bind (·.description)
    required := some (!f.type.isOption)
    deprecated := if f.deprecated then some true else none
    schema := some schema }

/-- An argument with a note of its own; what the note leaves open comes from
the binding, and an unbound argument is a query parameter. -/
def notedParameter (infer : TypeExpr → Gen Schema) (a : Argument) (n : ParameterNote) :
    Gen Parameter := do
  let p ← n.node infer (some a.type)
  pure (if p.reference.isSome then p
    else { p with
      name := p.name.orElse fun _ => some ((a.binding.map (·.name)).getD a.name)
      location := p.location.orElse fun _ => some ((a.binding.map (·.location)).getD .query) })

def boundParameter (infer : TypeExpr → Gen Schema) (t : TypeExpr) (b : Binding) :
    Gen Parameter := do
  let schema ← infer t
  pure {
    name := some b.name
    location := some b.location
    required := if !t.isOption && b.location ≠ .query then some true else none
    schema := some schema }

def pushArgument (catalog : Catalog) (infer : TypeExpr → Gen Schema) (ps : List Parameter)
    (a : Argument) : Gen (List Parameter) :=
  if a.injected || a.suspended then pure ps
  else
    match a.parameter, a.binding with
    | some n, _ =>
      if n.hidden then pure ps
      else do
        let p ← notedParameter infer a n
        pure (pushParameter p ps)
    | none, none => pure ps
    | none, some b =>
      match bagFields? catalog a.type with
      | some fields =>
        (fields.filter fun f => !f.isAbsent).foldlM (fun ps f => do
          let p ← fieldParameter infer b.location f
          pure (pushParameter p ps)) ps
      | none => do
        let p ← boundParameter infer a.type b
        pure (pushParameter p ps)

def pushNote (infer : TypeExpr → Gen Schema) (h : Handler) (ps : List Parameter)
    (n : ParameterNote) : Gen (List Parameter) :=
  if n.hidden then pure ps
  else do
    let argument := n.name.bind h.argument?
    let p ← n.node infer (argument.map (·.type))
    let p := if p.reference.isSome then p
      else { p with
        location := p.location.orElse fun _ =>
          some (((argument.bind (·.binding)).map (·.location)).getD .query) }
    pure (pushParameter p ps)

def complete (infer : TypeExpr → Gen Schema) (h : Handler) (p : Parameter) : Gen Parameter :=
  if p.reference.isSome then pure p
  else
    let p := if p.location = some .path then { p with required := some true } else p
    if p.schema.isSome || !p.content.isEmpty then pure p
    else
      match p.name.bind h.argument? with
      | some a => do
        let s ← infer a.type
        pure { p with schema := some s }
      | none => pure p

def completeAll (infer : TypeExpr → Gen Schema) (h : Handler) :
    List Parameter → Gen (List Parameter)
  | [] => pure []
  | p :: ps => do
    let p ← complete infer h p
    let ps ← completeAll infer h ps
    pure (p :: ps)

def parameters (catalog : Catalog) (infer : TypeExpr → Gen Schema) (h : Handler) :
    Gen (List Parameter) := do
  let ps ← h.arguments.foldlM (pushArgument catalog infer) []
  let ps ← h.parameters.foldlM (pushNote infer h) ps
  completeAll infer h ps

end ApiDoc.Assembly
