import ApiDoc.Endpoint

/-!
# The schema notes of an inventory

Every note on a schema that an inventory holds, whatever it is attached to.
-/

set_option autoImplicit false

namespace ApiDoc

namespace TypeShape

def schemaNotes : TypeShape → List SchemaNote
  | .struct fields => fields.flatMap (·.schema.toList)
  | .enum variants => variants.flatMap fun v =>
    match v.payload with
    | .struct fields => fields.flatMap (·.schema.toList)
    | _ => []
  | .newtype _ => []

end TypeShape

def TypeDecl.schemaNotes (d : TypeDecl) : List SchemaNote := d.schema.toList ++ d.shape.schemaNotes

def Catalog.schemaNotes (c : Catalog) : List SchemaNote := c.values.flatMap (·.schemaNotes)

def ContentNote.schemaNotes (n : ContentNote) : List SchemaNote := n.schema.toList

def HeaderNote.schemaNotes (n : HeaderNote) : List SchemaNote := n.schema.toList

def ParameterNote.schemaNotes (n : ParameterNote) : List SchemaNote :=
  n.schema.toList ++ n.content.flatMap (·.schemaNotes)

def BodyNote.schemaNotes (n : BodyNote) : List SchemaNote := n.content.flatMap (·.schemaNotes)

def ResponseNote.schemaNotes (n : ResponseNote) : List SchemaNote :=
  n.content.flatMap (·.schemaNotes) ++ n.headers.flatMap (·.schemaNotes)

def CallbackOperationNote.schemaNotes (n : CallbackOperationNote) : List SchemaNote :=
  n.parameters.flatMap (·.schemaNotes) ++ n.requestBody.toList.flatMap (·.schemaNotes)
    ++ n.responses.flatMap (·.schemaNotes)

def CallbackNote.schemaNotes (n : CallbackNote) : List SchemaNote :=
  n.operations.flatMap (·.schemaNotes)

def Argument.schemaNotes (a : Argument) : List SchemaNote :=
  a.parameter.toList.flatMap (·.schemaNotes) ++ a.requestBody.toList.flatMap (·.schemaNotes)

def Handler.schemaNotes (h : Handler) : List SchemaNote :=
  h.arguments.flatMap (·.schemaNotes) ++ h.parameters.flatMap (·.schemaNotes)
    ++ h.requestBody.toList.flatMap (·.schemaNotes) ++ h.responses.flatMap (·.schemaNotes)
    ++ h.callbacks.flatMap (·.schemaNotes)

def Endpoint.schemaNotes (e : Endpoint) : List SchemaNote :=
  e.responses.flatMap (·.schemaNotes) ++ e.handlers.flatMap (·.schemaNotes)

def Inventory.schemaNotes (i : Inventory) : List SchemaNote :=
  Catalog.schemaNotes i.types ++ i.endpoints.flatMap (·.schemaNotes)

def Unreferenced (notes : List SchemaNote) : Prop := ∀ n ∈ notes, n.reference = none

@[simp] theorem unreferenced_append {ns ms : List SchemaNote} :
    Unreferenced (ns ++ ms) ↔ Unreferenced ns ∧ Unreferenced ms := List.forall_mem_append

@[simp] theorem unreferenced_flatMap {α : Type} {f : α → List SchemaNote} {xs : List α} :
    Unreferenced (xs.flatMap f) ↔ ∀ x ∈ xs, Unreferenced (f x) := by
  simp only [Unreferenced, List.mem_flatMap]
  constructor
  · exact fun h x hx n hn => h n ⟨x, hx, hn⟩
  · rintro h n ⟨x, hx, hn⟩
    exact h x hx n hn

theorem Catalog.mem_schemaNotes_of_get? {c : Catalog} {name : String} {d : TypeDecl}
    (hd : c.get? name = some d) {n : SchemaNote} (hn : n ∈ d.schemaNotes) :
    n ∈ Catalog.schemaNotes c :=
  List.mem_flatMap.mpr ⟨d, List.mem_map_of_mem (f := Prod.snd) (c.mem_of_get? hd), hn⟩

end ApiDoc
