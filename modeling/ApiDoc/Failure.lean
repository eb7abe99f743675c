import ApiDoc.Attribute.Fault

/-!
# Failures and their messages
-/

set_option autoImplicit false

namespace ApiDoc

inductive Failure where
  | unreadable (path : String)
  | notADirectory (path : String)
  /-- Source text, or a type inside an annotation, that does not parse. -/
  | syntaxError (file : Option String)
  | faultyNote (file : String) (fault : Attribute.Fault)
  | malformedNumber (field value : String)
  | notJson (field : String)
  | unknownSchemaType (word : String)
  /-- A reference to a component of another kind. -/
  | notASchema (reference : String)
  | unknownStrategy (name : String)
  | unknownFilter (name : String)
  | settingsNotATable
  | malformedSettings
  | settingsFile (path : String) (cause : Failure)
  | malformedDocument
  /-- Types nest or refer to each other beyond the depth that was allowed. -/
  | tooDeep
  deriving Repr

namespace Failure

def message : Failure → String
  | .unreadable path => "IO error: cannot read " ++ path
  | .notADirectory path => "IO error: not a directory: " ++ path
  | .syntaxError file => "parse error in " ++ file.getD "<unknown>"
  | .faultyNote file fault => "invalid metadata in " ++ file ++ ": " ++ fault.message
  | .malformedNumber field value =>
    "malformed numeric value '" ++ value ++ "' for '" ++ field ++ "'"
  | .notJson field => "invalid value for '" ++ field ++ "': expected JSON"
  | .unknownSchemaType word => "invalid value for 'type': unknown schema type '" ++ word ++ "'"
  | .notASchema reference => "reference '" ++ reference ++ "' does not point at a schema"
  | .unknownStrategy name =>
    "configuration error: unknown operation id strategy '" ++ name ++ "'"
  | .unknownFilter name => "configuration error: unknown filter '" ++ name ++ "'"
  | .settingsNotATable => "configuration error: configuration must be a mapping"
  | .malformedSettings => "configuration error: malformed text"
  | .settingsFile path cause => "configuration error: " ++ path ++ ": " ++ cause.message
  | .malformedDocument => "serialization error: malformed document"
  | .tooDeep => "types nest too deeply"

end Failure

end ApiDoc
