import ApiDoc.Document.Operation
import ApiDoc.Failure
import ApiDoc.Text.Blank
import ApiDoc.Text.Split

/-!
# Names that are given once

A wanted name that is taken gets the least number behind it that makes it
free. Among as many numbers as there are used names one is always free, so the
search is bounded.
-/

set_option autoImplicit false

namespace ApiDoc

namespace Naming

def suffixed (base : String) (n : Nat) : String :=
  base ++ "_" ++ String.ofList (Nat.toDigits 10 n)

def fresh (used : List String) (base : String) : String :=
  if used.contains base then
    ((List.range used.length).map (fun n => suffixed base (n + 1))).find?
      (fun name => !used.contains name) |>.getD base
  else base

end Naming

structure OperationIds where
  used : List String := []

namespace OperationIds

def reserve (ids : OperationIds) (id : String) : OperationIds := ⟨id :: ids.used⟩

def claim (ids : OperationIds) (candidate : String) : String × OperationIds :=
  let id := Naming.fresh ids.used candidate
  (id, ids.reserve id)

end OperationIds

/-- A candidate for an operation id from the names of endpoint and handler, the
method, and the full path. -/
abbrev IdStrategy := String → String → HttpMethod → String → String

namespace IdStrategy

def byHandler : IdStrategy := fun _ handler _ _ => handler

def byEndpoint : IdStrategy := fun endpoint handler _ _ => endpoint ++ "_" ++ handler

def pathWord (path : String) : List Char :=
  let kept := path.toList.filter fun c => c ≠ '\x7b' ∧ c ≠ '\x7d'
  let joined := kept.map fun c => if c = '/' ∨ c = '-' ∨ c = '.' then '_' else c
  Text.strip (· = '_') joined

def byPath : IdStrategy := fun _ _ verb path =>
  match pathWord path with
  | [] => verb.name
  | word => verb.name ++ "_" ++ String.ofList word

def ofName (name : String) : Except Failure IdStrategy :=
  match Text.trim name with
  | "method" | "method-name" => .ok byHandler
  | "type-method" => .ok byEndpoint
  | "verb-path" => .ok byPath
  | other => .error (.unknownStrategy other)

end IdStrategy

namespace Naming

def segment : List Char → List Char
  | ':' :: name => '\x7b' :: (name ++ ['\x7d'])
  | cs => cs

def segments (fragment : List Char) : List (List Char) :=
  (Text.cut '/' fragment).filter fun s => !s.isEmpty

def joinPaths (fragments : List String) : String :=
  let parts := (fragments.flatMap fun f => segments f.toList).map segment
  String.ofList ('/' :: Text.join ['/'] parts)

end Naming

end ApiDoc
