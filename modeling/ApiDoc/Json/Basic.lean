import ApiDoc.Ordered

/-!
# JSON values

An object keeps its rows in the order and number in which they were read;
`Json.distinct` is the rule for free-form data, where a repeated key keeps its
first place and takes its last value. Whole numbers of 64 bits are kept
exactly, every other number is a double.
-/

set_option autoImplicit false

namespace ApiDoc

inductive JsonNumber where
  | whole (value : Int)
  | float (value : Float)
  deriving Inhabited

namespace JsonNumber

def equal : JsonNumber → JsonNumber → Bool
  | .whole a, .whole b => a = b
  | .float a, .float b => a == b
  | _, _ => false

end JsonNumber

inductive Json where
  | null
  | bool (value : Bool)
  | number (value : JsonNumber)
  | text (value : String)
  | array (items : List Json)
  | object (rows : List (String × Json))
  deriving Inhabited

namespace Json

def text? : Json → Option String
  | .text s => some s
  | _ => none

def field? (name : String) : Json → Option Json
  | .object rows => rows.lookup name
  | _ => none

mutual
/-- Free-form data: in every object a repeated key keeps its first place and
takes its last value. -/
def distinct : Json → Json
  | .array items => .array (distinctItems items)
  | .object rows => .object (Ordered.ofRows (distinctRows rows)).entries
  | j => j
def distinctItems : List Json → List Json
  | [] => []
  | j :: js => distinct j :: distinctItems js
def distinctRows : List (String × Json) → List (String × Json)
  | [] => []
  | (k, j) :: rows => (k, distinct j) :: distinctRows rows
end

mutual
def equal : Json → Json → Bool
  | .null, .null => true
  | .bool a, .bool b => a = b
  | .number a, .number b => a.equal b
  | .text a, .text b => a = b
  | .array a, .array b => equalItems a b
  | .object a, .object b => a.length = b.length && equalRows a b
  | _, _ => false
def equalItems : List Json → List Json → Bool
  | [], [] => true
  | a :: as, b :: bs => equal a b && equalItems as bs
  | _, _ => false
def equalRows : List (String × Json) → List (String × Json) → Bool
  | [], _ => true
  | (k, a) :: rows, other =>
    (match other.lookup k with
      | some b => equal a b
      | none => false) && equalRows rows other
end

mutual
def height : Json → Nat
  | .array items => heightItems items + 1
  | .object rows => heightRows rows + 1
  | _ => 0
def heightItems : List Json → Nat
  | [] => 0
  | j :: js => max (height j) (heightItems js)
def heightRows : List (String × Json) → Nat
  | [] => 0
  | (_, j) :: rows => max (height j) (heightRows rows)
end

end Json

end ApiDoc
