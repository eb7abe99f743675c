import ApiDoc.Json.Basic

/-!
# Reading JSON text

`Json.read limit` accepts the grammar of JSON with at most `limit` levels of
nesting. Numbers are read with one word of significand: the digits that fit
count, later digits of the whole part only raise the power of ten, later digits
of the fraction are dropped, and the double is the significand times the power
of ten in double arithmetic.
-/

set_option autoImplicit false

namespace ApiDoc.Json

namespace Reader

def isBlank (c : Char) : Bool := c = ' ' || c = '\n' || c = '\t' || c = '\r'

def skipBlank (cs : List Char) : List Char := cs.dropWhile isBlank

def digit (c : Char) : Nat := c.toNat - '0'.toNat

def fitting (start count : Nat) : List Char → Nat × Nat × List Char
  | [] => (start, count, [])
  | c :: cs =>
    if c.isDigit && start * 10 + digit c < UInt64.size then
      fitting (start * 10 + digit c) (count + 1) cs
    else (start, count, c :: cs)

def startsWithDigit : List Char → Bool
  | c :: _ => c.isDigit
  | [] => false

def scaled : Nat → Float → Int → Option Float
  | 0, f, _ => some f
  | fuel + 1, f, e =>
    if e.natAbs ≤ 308 then
      let power := Float.ofScientific 1 false e.natAbs
      if 0 ≤ e then
        let product := f * power
        if product.isInf then none else some product
      else some (f / power)
    else if f == 0.0 then some f
    else if 0 ≤ e then none
    else scaled fuel (f / Float.ofScientific 1 false 308) (e + 308)

def double (negative : Bool) (significand : Nat) (e : Int) : Option JsonNumber :=
  (scaled 8 significand.toUInt64.toFloat e).map fun f => .float (if negative then -f else f)

/-- The exponent after its letter. A power too large for a word is an error,
unless it makes the number vanish. -/
def exponent (negative : Bool) (significand : Nat) (e : Int) (cs : List Char) :
    Option (JsonNumber × List Char) :=
  let (down, cs) := match cs with
    | '+' :: r => (false, r)
    | '-' :: r => (true, r)
    | r => (false, r)
  let digits := cs.takeWhile Char.isDigit
  let rest := cs.dropWhile Char.isDigit
  if digits.isEmpty then none
  else
    let power := digits.foldl (fun n c => n * 10 + digit c) 0
    if power ≥ UInt32.size / 2 then
      if significand ≠ 0 && !down then none
      else some (.float (if negative then -0.0 else 0.0), rest)
    else
      (double negative significand (if down then e - power else e + power)).map (·, rest)

def afterMantissa (negative : Bool) (significand : Nat) (e : Int) :
    List Char → Option (JsonNumber × List Char)
  | 'e' :: cs | 'E' :: cs => exponent negative significand e cs
  | cs => (double negative significand e).map (·, cs)

def fraction (negative : Bool) (significand : Nat) (e : Int) (cs : List Char) :
    Option (JsonNumber × List Char) :=
  let (s, count, rest) := fitting significand 0 cs
  if startsWithDigit rest then
    afterMantissa negative s (e - count) (rest.dropWhile Char.isDigit)
  else if count = 0 then none
  else afterMantissa negative s (e - count) rest

def wholeNumber (negative : Bool) (significand : Nat) : JsonNumber :=
  if !negative then .whole significand
  else if 0 < significand ∧ significand ≤ UInt64.size / 2 then .whole (-significand)
  else .float (-significand.toUInt64.toFloat)

def afterWhole (negative : Bool) (significand : Nat) :
    List Char → Option (JsonNumber × List Char)
  | '.' :: cs => fraction negative significand 0 cs
  | 'e' :: cs | 'E' :: cs => exponent negative significand 0 cs
  | cs => some (wholeNumber negative significand, cs)

def magnitude (negative : Bool) : List Char → Option (JsonNumber × List Char)
  | '0' :: cs => if startsWithDigit cs then none else afterWhole negative 0 cs
  | cs =>
    if startsWithDigit cs then
      let (s, _, rest) := fitting 0 0 cs
      if startsWithDigit rest then
        let more := (rest.takeWhile Char.isDigit).length
        match rest.dropWhile Char.isDigit with
        | '.' :: r => fraction negative s more r
        | r => afterMantissa negative s more r
      else afterWhole negative s rest
    else none

def number : List Char → Option (JsonNumber × List Char)
  | '-' :: cs => magnitude true cs
  | cs => magnitude false cs

def hexDigit? (c : Char) : Option Nat :=
  if '0' ≤ c ∧ c ≤ '9' then some (c.toNat - '0'.toNat)
  else if 'a' ≤ c ∧ c ≤ 'f' then some (c.toNat - 'a'.toNat + 10)
  else if 'A' ≤ c ∧ c ≤ 'F' then some (c.toNat - 'A'.toNat + 10)
  else none

def hex4? (a b c d : Char) : Option Nat := do
  let a ← hexDigit? a
  let b ← hexDigit? b
  let c ← hexDigit? c
  let d ← hexDigit? d
  pure (((a * 16 + b) * 16 + c) * 16 + d)

def escaped? : Char → Option Char
  | '"' => some '"'
  | '\\' => some '\\'
  | '/' => some '/'
  | 'b' => some '\x08'
  | 'f' => some '\x0c'
  | 'n' => some '\n'
  | 'r' => some '\r'
  | 't' => some '\t'
  | _ => none

/-- The characters up to the closing quote, after those already read. A code
unit above the first plane is written as two escapes, neither of which may
stand alone. -/
def quoted (read : List Char) : List Char → Option (List Char × List Char)
  | [] => none
  | '"' :: cs => some (read.reverse, cs)
  | '\\' :: 'u' :: a :: b :: c :: d :: cs =>
    match hex4? a b c d with
    | none => none
    | some n =>
      if 0xD800 ≤ n ∧ n < 0xDC00 then
        match cs with
        | '\\' :: 'u' :: e :: f :: g :: h :: cs =>
          match hex4? e f g h with
          | none => none
          | some low =>
            if 0xDC00 ≤ low ∧ low < 0xE000 then
              let code := 0x10000 + (n - 0xD800) * 0x400 + (low - 0xDC00)
              quoted (Char.ofNat code :: read) cs
            else none
        | _ => none
      else if 0xDC00 ≤ n ∧ n < 0xE000 then none
      else quoted (Char.ofNat n :: read) cs
  | '\\' :: c :: cs =>
    match escaped? c with
    | some e => quoted (e :: read) cs
    | none => none
  | c :: cs => if c.toNat < 0x20 then none else quoted (c :: read) cs

mutual
def value : Nat → Nat → List Char → Option (Json × List Char)
  | 0, _, _ => none
  | fuel + 1, limit, cs =>
    match skipBlank cs with
    | 'n' :: 'u' :: 'l' :: 'l' :: r => some (.null, r)
    | 't' :: 'r' :: 'u' :: 'e' :: r => some (.bool true, r)
    | 'f' :: 'a' :: 'l' :: 's' :: 'e' :: r => some (.bool false, r)
    | '"' :: r => (quoted [] r).map fun (s, r) => (.text (String.ofList s), r)
    | '[' :: r =>
      match limit, skipBlank r with
      | 0, _ => none
      | _ + 1, ']' :: r => some (.array [], r)
      | limit + 1, r => (items fuel limit r).map fun (js, r) => (.array js, r)
    | '\x7b' :: r =>
      match limit, skipBlank r with
      | 0, _ => none
      | _ + 1, '\x7d' :: r => some (.object [], r)
      | limit + 1, r => (rows fuel limit r).map fun (js, r) => (.object js, r)
    | r => (number r).map fun (n, r) => (.number n, r)
def items : Nat → Nat → List Char → Option (List Json × List Char)
  | 0, _, _ => none
  | fuel + 1, limit, cs =>
    match value fuel limit cs with
    | none => none
    | some (j, r) =>
      match skipBlank r with
      | ']' :: r => some ([j], r)
      | ',' :: r => (items fuel limit r).map fun (js, r) => (j :: js, r)
      | _ => none
def rows : Nat → Nat → List Char → Option (List (String × Json) × List Char)
  | 0, _, _ => none
  | fuel + 1, limit, cs =>
    match skipBlank cs with
    | '"' :: r =>
      match quoted [] r with
      | none => none
      | some (key, r) =>
        match skipBlank r with
        | ':' :: r =>
          match value fuel limit r with
          | none => none
          | some (j, r) =>
            match skipBlank r with
            | '\x7d' :: r => some ([(String.ofList key, j)], r)
            | ',' :: r =>
              (rows fuel limit r).map fun (js, r) => ((String.ofList key, j) :: js, r)
            | _ => none
        | _ => none
    | _ => none
end

/-- The blanks before a value do not count. -/
theorem value_skip (fuel limit : Nat) {cs ds : List Char} (h : skipBlank cs = skipBlank ds) :
    value fuel limit cs = value fuel limit ds := by
  cases fuel with
  | zero => rw [value, value]
  | succ fuel => rw [value, value, h]

end Reader

def read (limit : Nat) (text : String) : Option Json :=
  let cs := text.toList
  match Reader.value (cs.length + 1) limit cs with
  | some (j, r) => if (Reader.skipBlank r).isEmpty then some j else none
  | none => none

def maxLevels : Nat := 127

def parse? (text : String) : Option Json := read maxLevels text

end ApiDoc.Json
