import ApiDoc.Text.Ident

/-!
# Literals of source text

Scanners for quoted text, characters, bytes and numbers. Each takes the
characters that are left and gives what it read and what is left then. A letter
behind a literal begins its suffix. Numbers keep their value and not their
spelling: an integer is a number, a decimal fraction its digits without
underscores.
-/

set_option autoImplicit false

namespace ApiDoc.Source

inductive Literal where
  | text (value : String) (suffixed : Bool)
  | integer (value : Nat) (suffixed : Bool)
  /-- `digits` is the number without underscores and suffix, `spelling` is what
  stands in the source. -/
  | decimal (digits spelling : String)
  | boolean (value : Bool)
  /-- A character, a byte or a text that is not for people. -/
  | other
  deriving DecidableEq, Repr, Inhabited

namespace Literal

def nameRun (cs : List Char) : List Char × List Char :=
  (cs.takeWhile Text.isIdentContinue, cs.dropWhile Text.isIdentContinue)

def name? : List Char → Option (List Char × List Char)
  | c :: cs => if Text.isIdentStart c then some (nameRun (c :: cs)) else none
  | [] => none

def dropSuffix (cs : List Char) : List Char := ((name? cs).map (·.2)).getD cs

/-! ## Quoted text -/

structure Alphabet where
  ascii : Bool := false
  /-- Escapes by two digits go beyond ASCII. -/
  bytes : Bool := false
  /-- Escapes by code point. -/
  points : Bool := false
  zero : Bool := true

namespace Alphabet

def text : Alphabet := { points := true }

def byteText : Alphabet := { ascii := true, bytes := true }

def terminated : Alphabet := { bytes := true, points := true, zero := false }

def has (a : Alphabet) (c : Char) : Bool :=
  (!a.ascii || c.toNat < 128) && (a.zero || c.toNat ≠ 0)

end Alphabet

def hexDigit? (c : Char) : Option Nat :=
  if c.isDigit then some (c.toNat - 48)
  else if 'a' ≤ c ∧ c ≤ 'f' then some (c.toNat - 87)
  else if 'A' ≤ c ∧ c ≤ 'F' then some (c.toNat - 55)
  else none

def codePoint? : Nat → Nat → List Char → Option (Nat × List Char)
  | _, _, [] => none
  | count, value, c :: cs =>
    if c = '\x7d' then if count = 0 then none else some (value, cs)
    else if c = '_' then if count = 0 then none else codePoint? count value cs
    else do
      let d ← hexDigit? c
      if count = 6 then none else codePoint? (count + 1) (16 * value + d) cs

def ofPoint? (a : Alphabet) (n : Nat) : Option Char :=
  if n.isValidChar ∧ (a.zero ∨ n ≠ 0) then some (Char.ofNat n) else none

def escape? (a : Alphabet) : List Char → Option (Char × List Char)
  | 'n' :: cs => some ('\n', cs)
  | 'r' :: cs => some ('\r', cs)
  | 't' :: cs => some ('\t', cs)
  | '\\' :: cs => some ('\\', cs)
  | '\'' :: cs => some ('\'', cs)
  | '"' :: cs => some ('"', cs)
  | '0' :: cs => if a.zero then some (Char.ofNat 0, cs) else none
  | 'x' :: high :: low :: cs => do
    let n := 16 * (← hexDigit? high) + (← hexDigit? low)
    if a.bytes ∨ n < 128 then do pure (← ofPoint? a n, cs) else none
  | 'u' :: brace :: cs =>
    if a.points ∧ brace = '\x7b' then do
      let (n, cs) ← codePoint? 0 0 cs
      pure (← ofPoint? a n, cs)
    else none
  | _ => none

def skipBreak : List Char → Option (List Char)
  | [] => none
  | '\r' :: '\n' :: cs => skipBreak cs
  | '\r' :: _ => none
  | c :: cs => if c = ' ' ∨ c = '\t' ∨ c = '\n' then skipBreak cs else some (c :: cs)

/-- The value of a text up to its closing quote. A line break is one character,
a backslash before it removes it and the blanks behind it. -/
def quoted? (a : Alphabet) : Nat → List Char → List Char → Option (List Char × List Char)
  | 0, _, _ => none
  | _, _, [] => none
  | fuel + 1, value, c :: cs =>
    if c = '"' then some (value.reverse, cs)
    else if c = '\r' then
      match cs with
      | '\n' :: cs => quoted? a fuel ('\n' :: value) cs
      | _ => none
    else if c = '\\' then
      match cs with
      | '\n' :: _ | '\r' :: _ => do quoted? a fuel value (← skipBreak cs)
      | _ => do
        let (e, cs) ← escape? a cs
        quoted? a fuel (e :: value) cs
    else if a.has c then quoted? a fuel (c :: value) cs
    else none

def raw? (a : Alphabet) (signs : Nat) : List Char → List Char → Option (List Char × List Char)
  | _, [] => none
  | value, '\r' :: '\n' :: cs => raw? a signs ('\n' :: '\r' :: value) cs
  | value, c :: cs =>
    if c = '\r' then none
    else if c = '"' ∧ (cs.take signs).length = signs ∧ (cs.take signs).all (· = '#') then
      some (value.reverse, cs.drop signs)
    else if a.has c then raw? a signs (c :: value) cs
    else none

def rawText? (a : Alphabet) (cs : List Char) : Option (List Char × List Char) :=
  let signs := (cs.takeWhile (· = '#')).length
  match cs.drop signs with
  | '"' :: cs => if signs ≤ 255 then raw? a signs [] cs else none
  | _ => none

def single? (a : Alphabet) : List Char → Option (List Char)
  | '\\' :: cs => do
    match ← escape? a cs with
    | (_, '\'' :: cs) => pure cs
    | _ => none
  | c :: '\'' :: cs => if a.has c then some cs else none
  | _ => none

/-! ## Numbers -/

/-- Digits of a base with underscores among them: their value, whether there
were any, and what is left. A decimal digit that the base lacks is refused. -/
def digits? (base : Nat) : Nat → Bool → List Char → Option (Nat × Bool × List Char)
  | value, any, [] => some (value, any, [])
  | value, any, c :: cs =>
    if c = '_' then digits? base value any cs
    else
      match hexDigit? c with
      | some d =>
        if d < base then digits? base (base * value + d) true cs
        else if d < 10 then none
        else some (value, any, c :: cs)
      | none => some (value, any, c :: cs)

def based? : List Char → Option (Nat × Bool × List Char)
  | '0' :: 'x' :: cs => digits? 16 0 false cs
  | '0' :: 'o' :: cs => digits? 8 0 false cs
  | '0' :: 'b' :: cs => digits? 2 0 false cs
  | c :: cs => if c.isDigit then digits? 10 0 false (c :: cs) else none
  | [] => none

def isBreak (cs : List Char) : Bool := !cs.head?.any Text.isIdentContinue

def integer? (cs : List Char) : Option (Literal × List Char) := do
  let (value, any, cs) ← based? cs
  guard any
  let rest := dropSuffix cs
  guard (isBreak rest)
  pure (.integer value (rest.length ≠ cs.length), rest)

def isDigitOrLow (c : Char) : Bool := c.isDigit || c = '_'

def exponent? (signed valued : Bool) : List Char → Option (List Char × List Char)
  | [] => if valued then some ([], []) else none
  | c :: cs =>
    if c.isDigit then (exponent? signed true cs).map fun (e, r) => (c :: e, r)
    else if c = '_' then (exponent? signed valued cs).map fun (e, r) => (c :: e, r)
    else if valued then some ([], c :: cs)
    else if (c = '+' ∨ c = '-') ∧ !signed then
      (exponent? true valued cs).map fun (e, r) => (c :: e, r)
    else none

def point? : List Char → Option (List Char)
  | '.' :: c :: cs => if c = '.' ∨ Text.isIdentStart c then none else some (c :: cs)
  | '.' :: [] => some []
  | _ => none

/-- The digits of a decimal fraction and what is left. There is a point or an
exponent; the letter of an exponent that has no digits is left over. -/
def fraction? (cs : List Char) : Option (List Char × List Char) :=
  let whole := cs.takeWhile isDigitOrLow
  let rest := cs.dropWhile isDigitOrLow
  if whole.head?.any Char.isDigit then
    match rest with
    | '.' :: _ => do
      let behind ← point? rest
      let part := behind.takeWhile isDigitOrLow
      let rest := behind.dropWhile isDigitOrLow
      match rest with
      | c :: after =>
        if c = 'e' ∨ c = 'E' then
          match exponent? false false after with
          | some (e, rest) => pure (whole ++ '.' :: part ++ c :: e, rest)
          | none => pure (whole ++ '.' :: part, rest)
        else pure (whole ++ '.' :: part, rest)
      | [] => pure (whole ++ '.' :: part, rest)
    | c :: after =>
      if c = 'e' ∨ c = 'E' then do
        let (e, rest) ← exponent? false false after
        pure (whole ++ c :: e, rest)
      else none
    | [] => none
  else none

def plainDigits (cs : List Char) : List Char :=
  (cs.filter fun c => c ≠ '_' ∧ c ≠ '+').map fun c => if c = 'E' then 'e' else c

def decimal? (cs : List Char) : Option (Literal × List Char) := do
  let (number, rest) ← fraction? cs
  let after := dropSuffix rest
  guard (isBreak after)
  let suffix := rest.take (rest.length - after.length)
  pure (.decimal (String.ofList (plainDigits number)) (String.ofList (number ++ suffix)), after)

/-! ## Any literal -/

def ofQuoted (found : Option (List Char × List Char)) : Option (Literal × List Char) :=
  found.map fun (value, rest) =>
    let after := dropSuffix rest
    (.text (String.ofList value) (after.length ≠ rest.length), after)

def ofHidden (found : Option (List Char × List Char)) : Option (Literal × List Char) :=
  found.map fun (_, rest) => (.other, dropSuffix rest)

def ofSingle (found : Option (List Char)) : Option (Literal × List Char) :=
  found.map fun rest => (.other, dropSuffix rest)

def ofChars? (fuel : Nat) (cs : List Char) : Option (Literal × List Char) :=
  match cs with
  | '"' :: rest => ofQuoted (quoted? .text fuel [] rest)
  | 'r' :: rest => ofQuoted (rawText? .text rest)
  | 'b' :: '"' :: rest => ofHidden (quoted? .byteText fuel [] rest)
  | 'b' :: 'r' :: rest => ofHidden (rawText? .byteText rest)
  | 'c' :: '"' :: rest => ofHidden (quoted? .terminated fuel [] rest)
  | 'c' :: 'r' :: rest => ofHidden (rawText? .terminated rest)
  | 'b' :: '\'' :: rest => ofSingle (single? .byteText rest)
  | '\'' :: rest => ofSingle (single? .text rest)
  | _ => (decimal? cs).orElse fun _ => integer? cs

end Literal

end ApiDoc.Source
