import ApiDoc.Note
import ApiDoc.Failure
import ApiDoc.Json.Reader
import ApiDoc.Text.Blank

/-!
# Values written in notes

A bound is a number of JSON with blanks around it. A value is a text where the
schema is a string, else JSON if it reads as JSON, else a text.
-/

set_option autoImplicit false

namespace ApiDoc

namespace SchemaType

def ofWord (word : String) : Except Failure SchemaType :=
  match ofName? word with
  | some t => .ok t
  | none => .error (.unknownSchemaType word)

end SchemaType

namespace Literal

def value (hint : Option SchemaType) (s : String) : Json :=
  if hint = some .string then .text s
  else
    match Json.parse? s with
    | some j => j.distinct
    | none => .text s

def json (field : String) (s : String) : Except Failure Json :=
  match Json.parse? s with
  | some j => .ok j.distinct
  | none => .error (.notJson field)

def bound (field : String) (s : String) : Except Failure JsonNumber :=
  match Json.Reader.number (Text.strip Text.isBlank s.toList) with
  | some (n, []) => .ok n
  | _ => .error (.malformedNumber field s)

def bound? (field : String) : Option String → Except Failure (Option JsonNumber)
  | some s => (bound field s).map some
  | none => .ok none

def extensionKey (name : String) : String := if name.startsWith "x-" then name else "x-" ++ name

def extension (n : ExtensionNote) : Except Failure (String × Json) :=
  let key := extensionKey n.name
  if n.parsed then (json key n.value).map fun j => (key, j) else .ok (key, .text n.value)

def extensions (notes : List ExtensionNote) : Except Failure Extensions :=
  (notes.mapM extension).map Ordered.ofRows

end Literal

end ApiDoc
