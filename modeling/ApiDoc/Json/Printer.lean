import ApiDoc.Json.Basic
import ApiDoc.Decimal.Shortest

/-!
# Writing JSON text

`compact` has no blanks; `pretty` puts every row and item on its own line, two
blanks deeper than the bracket that holds it.
-/

set_option autoImplicit false

namespace ApiDoc.Json

def floatLayout : FloatLayout := ⟨"+"⟩

namespace Printer

def wholeText (n : Int) : List Char :=
  if n < 0 then '-' :: Nat.toDigits 10 n.natAbs else Nat.toDigits 10 n.natAbs

def numberText : JsonNumber → List Char
  | .whole n => wholeText n
  | .float x => floatLayout.text x

def hexDigit (n : Nat) : Char :=
  if n < 10 then Char.ofNat ('0'.toNat + n) else Char.ofNat ('a'.toNat + (n - 10))

def escape (c : Char) : List Char :=
  if c = '"' then ['\\', '"']
  else if c = '\\' then ['\\', '\\']
  else if c = '\n' then ['\\', 'n']
  else if c = '\r' then ['\\', 'r']
  else if c = '\t' then ['\\', 't']
  else if c = '\x08' then ['\\', 'b']
  else if c = '\x0c' then ['\\', 'f']
  else if c.toNat < 0x20 then
    ['\\', 'u', '0', '0', hexDigit (c.toNat / 16), hexDigit (c.toNat % 16)]
  else [c]

def quote (s : String) : List Char := '"' :: (s.toList.flatMap escape ++ ['"'])

def boolText (b : Bool) : List Char := if b then "true".toList else "false".toList

def commas : List (List Char) → List Char
  | [] => []
  | [x] => x
  | x :: xs => x ++ ',' :: commas xs

mutual
def compact : Json → List Char
  | .null => "null".toList
  | .bool b => boolText b
  | .number n => numberText n
  | .text s => quote s
  | .array items => '[' :: (commas (compactItems items) ++ [']'])
  | .object rows => '\x7b' :: (commas (compactRows rows) ++ ['\x7d'])
def compactItems : List Json → List (List Char)
  | [] => []
  | j :: js => compact j :: compactItems js
def compactRows : List (String × Json) → List (List Char)
  | [] => []
  | (k, j) :: rows => (quote k ++ ':' :: compact j) :: compactRows rows
end

def newline (indent : Nat) : List Char := '\n' :: List.replicate (2 * indent) ' '

def lines (indent : Nat) : List (List Char) → List Char
  | [] => []
  | [x] => newline indent ++ x
  | x :: xs => newline indent ++ x ++ ',' :: lines indent xs

mutual
def pretty : Nat → Json → List Char
  | _, .null => "null".toList
  | _, .bool b => boolText b
  | _, .number n => numberText n
  | _, .text s => quote s
  | _, .array [] => ['[', ']']
  | indent, .array items =>
    '[' :: (lines (indent + 1) (prettyItems (indent + 1) items) ++ newline indent ++ [']'])
  | _, .object [] => ['\x7b', '\x7d']
  | indent, .object rows =>
    '\x7b' :: (lines (indent + 1) (prettyRows (indent + 1) rows) ++ newline indent ++ ['\x7d'])
def prettyItems : Nat → List Json → List (List Char)
  | _, [] => []
  | indent, j :: js => pretty indent j :: prettyItems indent js
def prettyRows : Nat → List (String × Json) → List (List Char)
  | _, [] => []
  | indent, (k, j) :: rows =>
    (quote k ++ ':' :: ' ' :: pretty indent j) :: prettyRows indent rows
end

end Printer

def compact (j : Json) : String := String.ofList (Printer.compact j)

def pretty (j : Json) : String := String.ofList (Printer.pretty 0 j)

end ApiDoc.Json
