import ApiDoc.Attribute.Arguments

/-!
# Attributes on the form of the data

The attribute `serde` says how a field or a variant is written. Keys that do not
change its name or its place are read and passed over.
-/

set_option autoImplicit false

namespace ApiDoc.Attribute

structure Wire where
  rename : Option String := none
  /-- The rule for the names inside. -/
  renameAll : Option String := none
  skipped : Bool := false
  flattened : Bool := false
  deriving Inhabited

namespace Wire

def directedName : Arguments String := do
  let found ← Arguments.nested (fun found key => do
    let name ← Arguments.text
    return if key.isNamed "serialize" || found.isNone then some name else found) none
  match found with
  | some name => return name
  | none => throw .expectedSerializeName

def name : Arguments String := do
  if ← Arguments.ahead (Source.Trees.isMark "=") then Arguments.text else directedName

def passValue : Nat → Arguments Unit
  | 0 => throw .malformed
  | depth + 1 => do
    if ← Arguments.ahead (Source.Trees.isMark "=") then
      let _ ← Arguments.expr
    else if ← Arguments.ahead (Source.Trees.isGroup .parenthesis) then
      Arguments.nested (fun _ _ => passValue depth) ()

def entry (w : Wire) (key : Arguments.Key) : Arguments Wire := do
  if key.isNamed "rename" then return { w with rename := some (← name) }
  else if key.isNamed "rename_all" then return { w with renameAll := some (← name) }
  else if key.isNamed "skip" || key.isNamed "skip_serializing" then
    return { w with skipped := true }
  else if key.isNamed "flatten" then return { w with flattened := true }
  else
    passValue (Source.Tree.weightList (← get) + 1)
    return w

def ofAttributes (attributes : List Attribute) : Except Fault Wire :=
  (attributes.filter fun a => a.isNamed "serde").foldlM (fun w a => withEntries a entry w) {}

end Wire

end ApiDoc.Attribute
