import ApiDoc.Json.Basic

/-!
# What a plain YAML scalar stands for

The core words of YAML 1.2: `null`, booleans, whole numbers in four bases and
doubles. Digits behind a leading zero are text, and so is every other word.
-/

set_option autoImplicit false

namespace ApiDoc.Yaml

def nullWords : List String := ["null", "Null", "NULL", "~"]

def isNullWord (s : String) : Bool := nullWords.contains s

def bool? (s : String) : Option Bool :=
  if ["true", "True", "TRUE"].contains s then some true
  else if ["false", "False", "FALSE"].contains s then some false
  else none

def digitIn? (base : Nat) (c : Char) : Option Nat :=
  let n :=
    if '0' ≤ c ∧ c ≤ '9' then c.toNat - '0'.toNat
    else if 'a' ≤ c ∧ c ≤ 'z' then c.toNat - 'a'.toNat + 10
    else if 'A' ≤ c ∧ c ≤ 'Z' then c.toNat - 'A'.toNat + 10
    else base
  if n < base then some n else none

def natural? (base : Nat) (cs : List Char) : Option Nat :=
  if cs.isEmpty then none
  else cs.foldl (fun n c => do pure ((← n) * base + (← digitIn? base c))) (some 0)

def isPadded (cs : List Char) : Bool :=
  let body := match cs with
    | '-' :: r | '+' :: r => r
    | r => r
  match body with
  | '0' :: d :: r => (d :: r).all Char.isDigit
  | _ => false

def withoutPlus : List Char → List Char
  | '+' :: r => r
  | r => r

def natural (bound : Nat) (base : Nat) (cs : List Char) : Option Nat :=
  (natural? base cs).filter (· < bound)

def unsigned? (bound : Nat) (cs : List Char) : Option Nat :=
  let body := withoutPlus cs
  let based := match body with
    | '0' :: 'x' :: r => natural bound 16 r
    | '0' :: 'o' :: r => natural bound 8 r
    | '0' :: 'b' :: r => natural bound 2 r
    | _ => none
  based.orElse fun _ => if isPadded cs then none else natural bound 10 body

def negative? (bound : Nat) (cs : List Char) : Option Int :=
  let magnitude := match cs with
    | '-' :: '0' :: 'x' :: r => natural (bound + 1) 16 r
    | '-' :: '0' :: 'o' :: r => natural (bound + 1) 8 r
    | '-' :: '0' :: 'b' :: r => natural (bound + 1) 2 r
    | _ => none
  (magnitude.orElse fun _ =>
    match cs with
    | '-' :: r => if isPadded cs then none else natural (bound + 1) 10 r
    | _ => none).map fun n => -(n : Int)

def nearest? (digits : Nat) (e : Int) : Option Float :=
  let reach : Int := (Nat.toDigits 10 digits).length + e
  if digits = 0 ∨ reach < -400 then some 0.0
  else if 400 < reach then none
  else
    let f := Float.ofScientific digits (decide (e < 0)) e.natAbs
    if f.isInf then none else some f

def decimal? (cs : List Char) : Option Float :=
  let (minus, cs) := match cs with
    | '-' :: r => (true, r)
    | r => (false, r)
  let whole := cs.takeWhile Char.isDigit
  let cs := cs.dropWhile Char.isDigit
  let (places, cs) := match cs with
    | '.' :: r => (r.takeWhile Char.isDigit, r.dropWhile Char.isDigit)
    | r => ([], r)
  if whole.isEmpty && places.isEmpty then none
  else
    let digits := (natural? 10 (whole ++ places)).getD 0
    let exponent? : Option Int := match cs with
      | [] => some 0
      | c :: r =>
        if c = 'e' ∨ c = 'E' then
          match r with
          | '-' :: r => (natural? 10 r).map fun n => -(n : Int)
          | '+' :: r => (natural? 10 r).map fun n => (n : Int)
          | r => (natural? 10 r).map fun n => (n : Int)
        else none
    match exponent? with
    | none => none
    | some e => (nearest? digits (e - places.length)).map fun f => if minus then -f else f

def infinity : Float := 1.0 / 0.0

def float? (cs : List Char) : Option Float :=
  let body := withoutPlus cs
  match cs, body with
  | '+' :: _, '+' :: _ => none
  | '+' :: _, '-' :: _ => none
  | _, _ =>
    if [".inf", ".Inf", ".INF"].contains (String.ofList body) then some infinity
    else if ["-.inf", "-.Inf", "-.INF"].contains (String.ofList cs) then some (-infinity)
    else if [".nan", ".NaN", ".NAN"].contains (String.ofList cs) then some (0.0 / 0.0)
    else decimal? body

/-- A scalar once its form has been looked at. Whole numbers of up to twice the
word length are recognised as such, but nothing holds them. -/
inductive Value where
  | null
  | bool (value : Bool)
  | number (value : JsonNumber)
  | text (value : String)
  | oversized

def plainInt? (cs : List Char) : Option Value :=
  match unsigned? UInt64.size cs, negative? (Nat.pow 2 63) cs with
  | some n, _ => some (.number (.whole n))
  | none, some n => some (.number (.whole n))
  | none, none =>
    if (unsigned? (Nat.pow 2 128) cs).isSome || (negative? (Nat.pow 2 127) cs).isSome then
      some .oversized
    else none

def plainValue (s : String) : Value :=
  let cs := s.toList
  if cs.isEmpty || isNullWord s then .null
  else
    match bool? s with
    | some b => .bool b
    | none =>
      match plainInt? cs with
      | some v => v
      | none =>
        if isPadded cs then .text s
        else
          match float? cs with
          | some f => .number (.float f)
          | none => .text s

end ApiDoc.Yaml
