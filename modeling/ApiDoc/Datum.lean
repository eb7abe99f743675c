import ApiDoc.Yaml.Scalar

/-!
# Data as read

JSON text and YAML text are read into one shape. What JSON writes is settled;
a YAML scalar keeps its text, because a plain `200` is a text where a text is
expected and a number where anything may stand. `Datum.settled` looks at every
scalar of a tree once and for all, as free-form data demands.
-/

set_option autoImplicit false

namespace ApiDoc

inductive ScalarForm where
  | plain
  | quoted
  | tagged (tag : String)
  deriving DecidableEq

inductive Datum where
  | null
  | bool (value : Bool)
  | number (value : JsonNumber)
  | text (value : String)
  | scalar (form : ScalarForm) (text : String)
  | list (items : List Datum)
  | table (rows : List (Datum × Datum))
  | tagged (content : Datum)
  deriving Inhabited

namespace Datum

mutual
def ofJson : Json → Datum
  | .null => .null
  | .bool b => .bool b
  | .number n => .number n
  | .text s => .text s
  | .array items => .list (ofItems items)
  | .object rows => .table (ofRows rows)
def ofItems : List Json → List Datum
  | [] => []
  | j :: js => ofJson j :: ofItems js
def ofRows : List (String × Json) → List (Datum × Datum)
  | [] => []
  | (k, j) :: rows => (.text k, ofJson j) :: ofRows rows
end

theorem ofItems_eq (js : List Json) : ofItems js = js.map ofJson := by
  induction js with
  | nil => rfl
  | cons j js ih => rw [ofItems, ih, List.map_cons]

theorem ofRows_eq (rows : List (String × Json)) :
    ofRows rows = rows.map fun row => (.text row.1, ofJson row.2) := by
  induction rows with
  | nil => rfl
  | cons row rows ih => rw [ofRows, ih, List.map_cons]

mutual
def height : Datum → Nat
  | .list items => heightItems items + 1
  | .table rows => heightRows rows + 1
  | .tagged d => height d
  | _ => 0
def heightItems : List Datum → Nat
  | [] => 0
  | d :: ds => max (height d) (heightItems ds)
def heightRows : List (Datum × Datum) → Nat
  | [] => 0
  | (k, d) :: rows => max (max (height k) (height d)) (heightRows rows)
end

def coreTag (name : String) : String := "tag:yaml.org,2002:" ++ name

def scalarValue (form : ScalarForm) (s : String) : Option Yaml.Value :=
  match form with
  | .plain => some (Yaml.plainValue s)
  | .quoted => some (.text s)
  | .tagged tag =>
    if tag = coreTag "bool" then (Yaml.bool? s).map .bool
    else if tag = coreTag "int" then Yaml.plainInt? s.toList
    else if tag = coreTag "float" then
      (Yaml.float? s.toList).map fun f => .number (.float f)
    else if tag = coreTag "null" then
      if Yaml.isNullWord s then some .null else none
    else if tag.startsWith "!" then none
    else some (.text s)

def ofValue : Yaml.Value → Option Datum
  | .null => some .null
  | .bool b => some (.bool b)
  | .number n => some (.number n)
  | .text s => some (.text s)
  | .oversized => none

mutual
def settled : Datum → Option Datum
  | .scalar form s => (scalarValue form s).bind ofValue
  | .list items => (settledItems items).map .list
  | .table rows => (settledRows rows).map .table
  | .tagged _ => none
  | d => some d
def settledItems : List Datum → Option (List Datum)
  | [] => some []
  | d :: ds => do pure ((← settled d) :: (← settledItems ds))
def settledRows : List (Datum × Datum) → Option (List (Datum × Datum))
  | [] => some []
  | (k, d) :: rows => do pure ((← settled k, ← settled d) :: (← settledRows rows))
end

mutual
/-- Equality of settled values; tables are compared without their order, and a
value under a tag of its own equals none. -/
def same : Datum → Datum → Bool
  | .null, .null => true
  | .bool a, .bool b => a = b
  | .number (.float a), .number (.float b) => a == b || (a.isNaN && b.isNaN)
  | .number a, .number b => a.equal b
  | .text a, .text b => a = b
  | .list a, .list b => sameItems a b
  | .table a, .table b => a.length = b.length && sameRows a b
  | _, _ => false
def sameItems : List Datum → List Datum → Bool
  | [], [] => true
  | a :: as, b :: bs => same a b && sameItems as bs
  | _, _ => false
def sameRows : List (Datum × Datum) → List (Datum × Datum) → Bool
  | [], _ => true
  | (k, a) :: rows, other => (other.any fun row => same k row.1 && same a row.2)
    && sameRows rows other
end

def hasTwins : List (Datum × Datum) → Bool
  | [] => false
  | (k, _) :: rows => rows.any (fun row => same k row.1) || hasTwins rows

mutual
/-- Every scalar replaced by its value, with tags of the document's own kept;
no table may have a key twice. -/
def valued : Datum → Option Datum
  | .scalar form s =>
    match form with
    | .tagged tag =>
      if tag.startsWith "!" then some (.tagged (.text s)) else (scalarValue form s).bind ofValue
    | form => (scalarValue form s).bind ofValue
  | .list items => (valuedItems items).map .list
  | .table rows =>
    (valuedRows rows).bind fun rows => if hasTwins rows then none else some (.table rows)
  | .tagged d => (valued d).map .tagged
  | d => some d
def valuedItems : List Datum → Option (List Datum)
  | [] => some []
  | d :: ds => do pure ((← valued d) :: (← valuedItems ds))
def valuedRows : List (Datum × Datum) → Option (List (Datum × Datum))
  | [] => some []
  | (k, d) :: rows => do pure ((← valued k, ← valued d) :: (← valuedRows rows))
end

def text? : Datum → Option String
  | .text s => some s
  | .scalar _ s => some s
  | _ => none

def isBlank : Datum → Bool
  | .scalar .plain s => s.isEmpty
  | _ => false

def rows? : Datum → Option (List (Datum × Datum))
  | .table rows => some rows
  | .tagged (.table rows) => some rows
  | d => if d.isBlank then some [] else none

def items? : Datum → Option (List Datum)
  | .list items => some items
  | .tagged (.list items) => some items
  | d => if d.isBlank then some [] else none

def isPresent? : Datum → Option Bool
  | .null => some false
  | .scalar .plain s => some (!s.isEmpty && !Yaml.isNullWord s)
  | .scalar (.tagged tag) s =>
    if tag = coreTag "null" then if Yaml.isNullWord s then some false else none
    else some true
  | _ => some true

def bool? : Datum → Option Bool
  | .bool b => some b
  | .scalar .plain s => Yaml.bool? s
  | .scalar (.tagged tag) s => if tag = coreTag "bool" then Yaml.bool? s else none
  | _ => none

def natural? : Datum → Option Nat
  | .number (.whole n) => if 0 ≤ n then some n.toNat else none
  | .scalar .plain s => Yaml.unsigned? UInt64.size s.toList
  | .scalar (.tagged tag) s =>
    if tag = coreTag "int" then Yaml.unsigned? UInt64.size s.toList else none
  | _ => none

def number? (d : Datum) : Option JsonNumber :=
  match settled d with
  | some (.number (.float f)) => if f.isFinite then some (.float f) else none
  | some (.number n) => some n
  | _ => none

mutual
/-- Free-form data. Keys are texts, a number that JSON cannot write is null,
and a repeated key keeps its first place and takes its last value. -/
def json? : Datum → Option Json
  | .null => some .null
  | .bool b => some (.bool b)
  | .number (.float f) => some (if f.isFinite then .number (.float f) else .null)
  | .number n => some (.number n)
  | .text s => some (.text s)
  | .scalar form s =>
    match scalarValue form s with
    | some .null => some .null
    | some (.bool b) => some (.bool b)
    | some (.number (.float f)) => some (if f.isFinite then .number (.float f) else .null)
    | some (.number n) => some (.number n)
    | some (.text t) => some (.text t)
    | some .oversized | none => none
  | .list items => (jsonItems items).map .array
  | .table rows => (jsonRows rows).map fun js => .object (Ordered.ofRows js).entries
  | .tagged _ => none
def jsonItems : List Datum → Option (List Json)
  | [] => some []
  | d :: ds => do pure ((← json? d) :: (← jsonItems ds))
def jsonRows : List (Datum × Datum) → Option (List (String × Json))
  | [] => some []
  | (k, d) :: rows => do pure ((← k.text?, ← json? d) :: (← jsonRows rows))
end

end Datum

end ApiDoc
