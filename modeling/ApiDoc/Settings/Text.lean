import ApiDoc.Settings.Basic
import ApiDoc.Yaml.Reader
import ApiDoc.Yaml.Printer
import ApiDoc.Failure

/-!
# Settings written as YAML

Nested tables are flattened into dotted keys, a list becomes its scalars
between commas, and what has no text is left out.
-/

set_option autoImplicit false

namespace ApiDoc

namespace Settings

def numberText : JsonNumber → String
  | .whole n => toString n
  | .float x =>
    if x.isNaN then ".nan"
    else if x.isInf then if x < 0 then "-.inf" else ".inf"
    else String.ofList (Yaml.floatLayout.text x)

def scalarText? : Datum → Option String
  | .text s => some s
  | .bool b => some (if b then "true" else "false")
  | .number n => some (numberText n)
  | _ => none

def nested (path key : String) : String := if path.isEmpty then key else path ++ "." ++ key

mutual
def flatten (path : String) : Datum → List (String × String)
  | .table rows => flattenRows path rows
  | .list items => [(path, ",".intercalate (items.filterMap scalarText?))]
  | d => ((scalarText? d).map fun s => (path, s)).toList
def flattenRows (path : String) : List (Datum × Datum) → List (String × String)
  | [] => []
  | (k, d) :: rows =>
    (match scalarText? k with
      | some key => flatten (nested path key) d
      | none => []) ++ flattenRows path rows
end

def withText (s : Settings) (text : String) : Except Failure Settings :=
  match (Yaml.parse? text).bind Datum.valued with
  | none => .error .malformedSettings
  | some .null => .ok s
  | some (.table rows) => .ok ⟨s.values.putAll (flattenRows "" rows)⟩
  | some _ => .error .settingsNotATable

def withFile (s : Settings) (path text : String) : Except Failure Settings :=
  (s.withText text).mapError (Failure.settingsFile path)

end Settings

end ApiDoc
