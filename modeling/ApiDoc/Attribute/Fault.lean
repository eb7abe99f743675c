/-!
# What can be wrong with an annotation
-/

set_option autoImplicit false

namespace ApiDoc.Attribute

inductive Fault where
  /-- A key that the vocabulary of `context` does not know. -/
  | unsupportedKey (context key : String)
  | unknownLocation (word : String)
  | unknownStyle (word : String)
  | unknownSchemeType (word : String)
  | unknownKeyLocation (word : String)
  | unknownMethod (word : String)
  /-- A literal that is neither text, number nor boolean. -/
  | unsupportedLiteral
  | expectedLiteral
  | expectedPath
  | expectedSerializeName
  | incompleteMapping
  | callbackWithoutMethod
  | responseWithoutStatus
  /-- The arguments do not have the form that their key asks for. -/
  | malformed
  deriving DecidableEq, Repr

namespace Fault

def message : Fault → String
  | .unsupportedKey context key => "unsupported " ++ context ++ " key '" ++ key ++ "'"
  | .unknownLocation word => "unknown parameter location '" ++ word ++ "'"
  | .unknownStyle word => "unknown parameter style '" ++ word ++ "'"
  | .unknownSchemeType word => "unknown security scheme type '" ++ word ++ "'"
  | .unknownKeyLocation word => "unknown api key location '" ++ word ++ "'"
  | .unknownMethod word => "unknown method '" ++ word ++ "'"
  | .unsupportedLiteral => "unsupported literal"
  | .expectedLiteral => "expected a literal"
  | .expectedPath => "expected a path string"
  | .expectedSerializeName => "expected serialize name"
  | .incompleteMapping => "discriminator_mapping needs `value` and `schema`"
  | .callbackWithoutMethod => "callback operation needs `method`"
  | .responseWithoutStatus => "api_response needs `status`"
  | .malformed => "malformed arguments"

end Fault

end ApiDoc.Attribute
