import ApiDoc.Yaml.Scalar
import ApiDoc.Decimal.Shortest
import ApiDoc.Json.Printer

/-!
# Writing YAML text

Block style throughout: the rows of a table two columns deeper than its key,
the items of a list in the column of its key. A text is written plain when it
reads back as itself, else in single quotes, else in double quotes; a text with
line breaks is a literal block where a block may stand.
-/

set_option autoImplicit false

namespace ApiDoc.Yaml

def floatLayout : FloatLayout := ⟨""⟩

namespace Printer

def isBreak (c : Char) : Bool :=
  c = '\r' || c = '\n' || c = '\x85' || c = '\u2028' || c = '\u2029'

def isBlank (c : Char) : Bool := c = ' ' || c = '\t'

def isPrintable (c : Char) : Bool :=
  let n := c.toNat
  n = 0x0A || (0x20 ≤ n && n ≤ 0x7E) || (0xA0 ≤ n && n ≠ 0xFEFF && n ≠ 0xFFFE && n ≠ 0xFFFF)

def blankAhead : List Char → Bool
  | [] => true
  | c :: _ => isBlank c || isBreak c || c = '\x00'

def opensOtherwise (c : Char) (rest : List Char) : Bool :=
  "#,[]\x7b\x7d&*!|>'\"%@`".toList.contains c
    || ((c = '?' || c = ':' || c = '-') && blankAhead rest)

def endsPlain (afterBlank : Bool) (c : Char) (rest : List Char) : Bool :=
  (c = ':' && blankAhead rest) || (c = '#' && afterBlank)

def hasIndicatorAfter (afterBlank : Bool) : List Char → Bool
  | [] => false
  | c :: rest => endsPlain afterBlank c rest || hasIndicatorAfter (blankAhead [c]) rest

def startsLike (marker : List Char) (cs : List Char) : Bool := cs.take 3 = marker

def hasIndicator : List Char → Bool
  | [] => false
  | c :: rest =>
    startsLike ['-', '-', '-'] (c :: rest) || startsLike ['.', '.', '.'] (c :: rest)
      || opensOtherwise c rest || hasIndicatorAfter (blankAhead [c]) rest

def hasPair (p q : Char → Bool) : List Char → Bool
  | a :: b :: rest => (p a && q b) || hasPair p q (b :: rest)
  | _ => false

def isSpace (c : Char) : Bool := c = ' '

structure Allowed where
  plain : Bool
  single : Bool
  block : Bool

def allowed (cs : List Char) : Allowed :=
  let edge (p : Char → Bool) (c? : Option Char) : Bool := (c?.map p).getD false
  let special := cs.any fun c => !isPrintable c
  let broken := cs.any isBreak
  let spaceBreak := hasPair isSpace isBreak cs
  let breakSpace := hasPair isBreak isSpace cs
  let outer := edge isSpace cs.head? || edge isBreak cs.head? || edge isSpace cs.getLast?
    || edge isBreak cs.getLast?
  let never := spaceBreak || special
  { plain := !never && !broken && !outer && !hasIndicator cs
    single := !never && !breakSpace
    block := !never && !edge isSpace cs.getLast? && !cs.isEmpty }

inductive Style where
  | plain
  | single
  | double
  | literal
  deriving DecidableEq

def isAmbiguous (s : String) : Bool :=
  match plainValue s with
  | .text _ => isPadded s.toList
  | _ => true

def style (simpleKey : Bool) (s : String) : Style :=
  let a := allowed s.toList
  if s.toList.contains '\n' then
    if a.block && !simpleKey then .literal else .double
  else if isAmbiguous s || !a.plain then
    if a.single then .single else .double
  else .plain

def hexDigit (n : Nat) : Char :=
  if n < 10 then Char.ofNat ('0'.toNat + n) else Char.ofNat ('A'.toNat + (n - 10))

def hexText : Nat → Nat → List Char
  | 0, _ => []
  | width + 1, n => hexText width (n / 16) ++ [hexDigit (n % 16)]

def escape (c : Char) : List Char :=
  let n := c.toNat
  match c with
  | '\x00' => ['\\', '0']
  | '\x07' => ['\\', 'a']
  | '\x08' => ['\\', 'b']
  | '\t' => ['\\', 't']
  | '\n' => ['\\', 'n']
  | '\x0b' => ['\\', 'v']
  | '\x0c' => ['\\', 'f']
  | '\r' => ['\\', 'r']
  | '\x1b' => ['\\', 'e']
  | '"' => ['\\', '"']
  | '\\' => ['\\', '\\']
  | '\x85' => ['\\', 'N']
  | '\xa0' => ['\\', '_']
  | '\u2028' => ['\\', 'L']
  | '\u2029' => ['\\', 'P']
  | _ =>
    if n ≤ 0xFF then '\\' :: 'x' :: hexText 2 n
    else if n ≤ 0xFFFF then '\\' :: 'u' :: hexText 4 n
    else '\\' :: 'U' :: hexText 8 n

def doubleQuoted (cs : List Char) : List Char :=
  '"' :: (cs.flatMap fun c =>
    if !isPrintable c || isBreak c || c = '"' || c = '\\' then escape c else [c]) ++ ['"']

def padding (indent : Nat) : List Char := List.replicate indent ' '

/-- A break inside quotes is followed by the indentation of the line. -/
def singleBody (indent : Nat) : Bool → List Char → List Char
  | _, [] => []
  | afterBreak, c :: cs =>
    if isBreak c then c :: singleBody indent true cs
    else
      (if afterBreak then padding indent else [])
        ++ (if c = '\'' then ['\'', '\''] else [c]) ++ singleBody indent false cs

def singleQuoted (indent : Nat) (cs : List Char) : List Char :=
  '\'' :: singleBody indent false cs ++ ['\'']

def chomping (cs : List Char) : List Char :=
  match cs.reverse with
  | [] => ['-']
  | [c] => if isBreak c then ['+'] else ['-']
  | c :: d :: _ => if !isBreak c then ['-'] else if isBreak d then ['+'] else []

def blockLines (indent : Nat) : Bool → List Char → List Char
  | _, [] => []
  | atStart, c :: cs =>
    if isBreak c then c :: blockLines indent true cs
    else (if atStart then padding indent else []) ++ c :: blockLines indent false cs

/-- A block whose first character is blank says how deep it is indented. -/
def literalBlock (indent : Nat) (cs : List Char) : List Char :=
  let hint := match cs with
    | c :: _ => if c = ' ' || isBreak c then ['2'] else []
    | [] => []
  '|' :: hint ++ chomping cs ++ '\n' :: blockLines indent true cs

def textScalar (simpleKey : Bool) (indent : Nat) (s : String) : List Char :=
  let cs := s.toList
  match style simpleKey s with
  | .plain => cs
  | .single => singleQuoted indent cs
  | .double => doubleQuoted cs
  | .literal => literalBlock indent cs

def numberText : JsonNumber → List Char
  | .whole n => Json.Printer.wholeText n
  | .float x => floatLayout.text x

def endLine (cs : List Char) : List Char :=
  if cs.getLast? = some '\n' then cs else cs ++ ['\n']

def isSimpleKey (s : String) : Bool :=
  s.utf8ByteSize ≤ 128 && !(s.toList.any isBreak)

def flat (column : Nat) : Json → List Char
  | .null => "null".toList
  | .bool b => Json.Printer.boolText b
  | .number n => numberText n
  | .text s => textScalar false (column + 2) s
  | .array _ => ['[', ']']
  | .object _ => ['\x7b', '\x7d']

mutual
/-- The value after its indicator, up to the end of its last line. `column` is
that of the enclosing collection. After a dash a collection begins on the same
line; after the colon of a simple key it begins on the next. -/
def value : Bool → Nat → Json → List Char
  | sameLine, column, .object rows =>
    if rows.isEmpty then [' ', '\x7b', '\x7d', '\n']
    else (if sameLine then ' ' else '\n') :: tableRows (!sameLine) (column + 2) rows
  | sameLine, column, .array items =>
    if items.isEmpty then [' ', '[', ']', '\n']
    else
      (if sameLine then ' ' else '\n')
        :: listItems (!sameLine) (if sameLine then column + 2 else column) items
  | _, column, j => ' ' :: endLine (flat column j)
def tableRows : Bool → Nat → List (String × Json) → List Char
  | _, _, [] => []
  | padded, column, (k, j) :: rows =>
    (if padded then padding column else [])
      ++ (if isSimpleKey k then textScalar true (column + 2) k ++ ':' :: value false column j
        else
          '?' :: ' ' :: endLine (textScalar false (column + 2) k) ++ padding column
            ++ ':' :: value true column j)
      ++ tableRows true column rows
def listItems : Bool → Nat → List Json → List Char
  | _, _, [] => []
  | padded, column, j :: js =>
    (if padded then padding column else []) ++ '-' :: value true column j
      ++ listItems true column js
end

def document : Json → List Char
  | .object (row :: rows) => tableRows true 0 (row :: rows)
  | .array (j :: js) => listItems true 0 (j :: js)
  | j => endLine (flat 0 j)

end Printer

def print (j : Json) : String := String.ofList (Printer.document j)

end ApiDoc.Yaml
