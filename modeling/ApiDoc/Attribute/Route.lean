import ApiDoc.Attribute.Operation
import ApiDoc.Endpoint

/-!
# Methods, paths, media types and bindings
-/

set_option autoImplicit false

namespace ApiDoc.Attribute

def soleText (trees : Source.Trees) : Except Fault String :=
  Arguments.textLiteral.runAll trees

def pathValue (a : Attribute) : Except Fault String :=
  match a.form with
  | .value e => Arguments.literalText e
  | .list trees => soleText trees
  | .bare => .error .expectedPath

def verb (a : Attribute) : Except Fault (Option (HttpMethod × Option String)) :=
  match HttpMethod.ofName? a.name with
  | none => .ok none
  | some method =>
    match a.form with
    | .bare => .ok (some (method, none))
    | .list _ | .value _ => do return some (method, some (← pathValue a))

def mediaTypes (a : Attribute) : Except Fault (List String) :=
  match a.form with
  | .list trees => (Arguments.parse fun _ =>
      Source.Parser.terminated Source.Parser.textLiteral).runAll trees
  | _ => .error .malformed

def bindingLocation? (name : String) : Option ParameterLocation :=
  match name with
  | "path_param" => some .path
  | "query_param" => some .query
  | "header_param" => some .header
  | "cookie_param" => some .cookie
  | _ => none

def binding (a : Attribute) (default : String) : Except Fault (Option Binding) :=
  match bindingLocation? a.name with
  | none => .ok none
  | some location =>
    match a.form with
    | .bare => .ok (some ⟨location, default⟩)
    | _ => do return some ⟨location, ← pathValue a⟩

end ApiDoc.Attribute
