import ApiDoc.Declaration
import ApiDoc.Naming
import ApiDoc.Failure

/-!
# Components under construction

A declared type gets its component before its members are looked at, so that
members which lead back to it find the reference. The written form of a type
leads to the place of its component, and a component name to the type that it
was given to.
-/

set_option autoImplicit false

namespace ApiDoc.Inference

structure Component where
  name : String
  schema : Schema

structure Arena where
  components : List Component := []
  places : Ordered Nat := {}
  owners : Ordered String := {}
  deriving Inhabited

namespace Arena

def size (a : Arena) : Nat := a.components.length

def names (a : Arena) : List String := a.components.map (·.name)

def indexOf? (a : Arena) (key : String) : Option Nat := a.places.get? key

def find? (a : Arena) (key : String) : Option Component :=
  (a.indexOf? key).bind fun place => a.components[place]?

def named? (a : Arena) (name : String) : Option Schema :=
  (a.components.find? (·.name = name)).map (·.schema)

def takenFrom (a : Arena) (key : String) : List String :=
  (a.owners.filter fun _ owner => owner ≠ key).keys

def allot (a : Arena) (key base : String) : Component × Arena :=
  let c : Component := ⟨Naming.fresh (a.takenFrom key) base, {}⟩
  (c, {
    components := a.components ++ [c]
    places := a.places.put key a.size
    owners := a.owners.put c.name key })

def fillAt (schema : Schema) : Nat → List Component → List Component
  | _, [] => []
  | 0, c :: cs => { c with schema := schema } :: cs
  | n + 1, c :: cs => c :: fillAt schema n cs

def fill (a : Arena) (place : Nat) (schema : Schema) : Arena :=
  { a with components := fillAt schema place a.components }

def register (a : Arena) (components : Components) : Components :=
  { components with
    schemas := a.components.foldl (fun m c => m.putNew c.name c.schema) components.schemas }

end Arena

abbrev Gen (α : Type) := ExceptT Failure (StateM Arena) α

namespace Gen

def check {α : Type} (e : Except Failure α) : Gen α := ExceptT.mk (pure e)

def fail {α : Type} (f : Failure) : Gen α := check (.error f)

end Gen

end ApiDoc.Inference
