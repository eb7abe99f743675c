import ApiDoc.Form.Document
import ApiDoc.Yaml.Reader
import ApiDoc.Yaml.Printer
import ApiDoc.Failure
import ApiDoc.FileName

/-!
# Documents as text

A document is written and read as JSON or as YAML. The extension of a file's
name says which of the two it holds; without a known one both are tried.
-/

set_option autoImplicit false

namespace ApiDoc

inductive TextFormat where
  | json
  | yaml
  deriving DecidableEq, Repr

namespace OpenApi

def ofYamlText? (text : String) : Option OpenApi := (Yaml.parse? text).bind form.decode

def toYamlText (d : OpenApi) : String := Yaml.print d.toJson

def ofText? (format : TextFormat) (text : String) : Option OpenApi :=
  match format with
  | .json => ofJsonText? text
  | .yaml => ofYamlText? text

def toText (format : TextFormat) (d : OpenApi) : String :=
  match format with
  | .json => d.toJsonText
  | .yaml => d.toYamlText

def read (format : TextFormat) (text : String) : Except Failure OpenApi :=
  match ofText? format text with
  | some d => .ok d
  | none => .error .malformedDocument

end OpenApi

namespace TextFormat

def ofPath? (path : List Char) : Option TextFormat :=
  match ((FileName.ofPath? path).bind FileName.extension?).map
      fun e => String.ofList (e.map Char.toLower) with
  | some "json" => some .json
  | some "yaml" | some "yml" => some .yaml
  | _ => none

end TextFormat

namespace OpenApi

def ofFile (path : List Char) (text : String) : Except Failure OpenApi :=
  match TextFormat.ofPath? path with
  | some format => read format text
  | none =>
    match ofJsonText? text with
    | some d => .ok d
    | none => read .yaml text

end OpenApi

end ApiDoc
