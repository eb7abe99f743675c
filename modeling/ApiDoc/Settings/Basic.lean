import ApiDoc.Ordered
import ApiDoc.Text.Blank
import ApiDoc.Text.Case
import ApiDoc.Text.Split

/-!
# Settings

Flat dotted keys with texts as values. Layers are written one over the other,
so the last writer of a key wins. In the name of a variable two underscores
separate segments, one stands for a hyphen and three for an underscore.
-/

set_option autoImplicit false

namespace ApiDoc

structure Settings where
  values : Ordered String := {}
  deriving Inhabited

namespace Settings

def serversKey : String := "openapi.servers"
def pathServersKey (path : String) : String := "openapi.servers.path." ++ path
def operationServersKey (id : String) : String := "openapi.servers.operation." ++ id
def operationTagsKey (id : String) : String := "openapi.tags.operation." ++ id
def operationSecurityKey (id : String) : String := "openapi.security.operation." ++ id
def strategyKey : String := "openapi.operation-id-strategy"
def filterKey : String := "openapi.filter"
def baseDocumentKey : String := "openapi.base-document"
def titleKey : String := "openapi.info.title"
def versionKey : String := "openapi.info.version"

def get? (s : Settings) (key : String) : Option String := s.values.get? key

def listItems (value : String) : List String :=
  (((Text.cut ',' value.toList).map (Text.strip Text.isBlank)).filter
    fun item => !item.isEmpty).map String.ofList

def list? (s : Settings) (key : String) : Option (List String) :=
  match (s.get? key).map listItems with
  | some (item :: items) => some (item :: items)
  | _ => none

def set (s : Settings) (key value : String) : Settings := ⟨s.values.put key value⟩

def withDefaults (s : Settings) : Settings := s.set strategyKey "method"

def behind? (marker cs : List Char) : Option (List Char) :=
  if marker.isPrefixOf cs then some (cs.drop marker.length) else none

/-- Three underscores become a mark that no separator can be read from. -/
def markUnderscores : List Char → List Char
  | '_' :: '_' :: '_' :: cs => '\x00' :: markUnderscores cs
  | c :: cs => c :: markUnderscores cs
  | [] => []

def cutSegments : List Char → List Char × List (List Char)
  | '_' :: '_' :: cs =>
    let (piece, pieces) := cutSegments cs
    ([], piece :: pieces)
  | c :: cs =>
    let (piece, pieces) := cutSegments cs
    (c :: piece, pieces)
  | [] => ([], [])

def segmentKey (cs : List Char) : List Char :=
  (Text.toLower cs).map fun c => if c = '_' then '-' else if c = '\x00' then '_' else c

def variableKey? (prefixText name : String) : Option String :=
  let head := Text.toUpper prefixText.toList
  ((behind? head name.toList).bind (behind? ['_', '_'])).map fun rest =>
    let (piece, pieces) := cutSegments (markUnderscores rest)
    String.ofList (Text.join ['.'] (Text.toLower head :: (piece :: pieces).map segmentKey))

def withVariable (prefixText : String) (s : Settings) (row : String × String) : Settings :=
  match variableKey? prefixText row.1 with
  | some key => s.set key row.2
  | none => s

def withVariables (s : Settings) (prefixText : String) (rows : List (String × String)) :
    Settings :=
  rows.foldl (withVariable prefixText) s

def variablePrefix : String := "OPENAPI"

end Settings

end ApiDoc
