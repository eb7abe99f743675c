import ApiDoc.Text.Blank

/-!
# Blanks and comments between tokens

Comments nest. A comment that documents something, with three slashes, two
stars or an exclamation mark at its start, is no blank: it stands for an
attribute.
-/

set_option autoImplicit false

namespace ApiDoc.Source

def isGap (c : Char) : Bool := Text.isBlank c || c = '\u200e' || c = '\u200f'

def restOfLine : List Char → List Char × List Char
  | [] => ([], [])
  | '\n' :: cs => ([], '\n' :: cs)
  | '\r' :: '\n' :: cs => ([], '\r' :: '\n' :: cs)
  | c :: cs =>
    let (line, rest) := restOfLine cs
    (c :: line, rest)

/-- What stands before the end of a comment, and what follows it; `depth`
comments have opened inside. -/
def closeComment : Nat → List Char → Option (List Char × List Char)
  | _, [] => none
  | depth, '/' :: '*' :: cs =>
    (closeComment (depth + 1) cs).map fun (inner, rest) => ('/' :: '*' :: inner, rest)
  | depth, '*' :: '/' :: cs =>
    match depth with
    | 0 => some ([], cs)
    | depth + 1 => (closeComment depth cs).map fun (inner, rest) => ('*' :: '/' :: inner, rest)
  | depth, c :: cs => (closeComment depth cs).map fun (inner, rest) => (c :: inner, rest)

def skipOne? : List Char → Option (List Char)
  | '/' :: '/' :: '/' :: '/' :: cs => some (restOfLine cs).2
  | '/' :: '/' :: '/' :: _ => none
  | '/' :: '/' :: '!' :: _ => none
  | '/' :: '/' :: cs => some (restOfLine cs).2
  | '/' :: '*' :: '*' :: '/' :: cs => some cs
  | '/' :: '*' :: '*' :: '*' :: cs => (closeComment 0 ('*' :: '*' :: cs)).map (·.2)
  | '/' :: '*' :: '*' :: _ => none
  | '/' :: '*' :: '!' :: _ => none
  | '/' :: '*' :: cs => (closeComment 0 cs).map (·.2)
  | c :: cs => if isGap c then some cs else none
  | [] => none

def skipGaps : Nat → List Char → List Char
  | 0, cs => cs
  | fuel + 1, cs =>
    match skipOne? cs with
    | some rest => skipGaps fuel rest
    | none => cs

def docComment? : List Char → Option (Bool × List Char × List Char)
  | '/' :: '/' :: '!' :: cs => some (true, restOfLine cs)
  | '/' :: '*' :: '!' :: cs => (closeComment 0 cs).map (true, ·)
  | '/' :: '/' :: '/' :: cs => some (false, restOfLine cs)
  | '/' :: '*' :: '*' :: cs => (closeComment 0 cs).map (false, ·)
  | _ => none

def hasNoBareReturn : List Char → Bool
  | [] => true
  | '\r' :: '\n' :: cs => hasNoBareReturn cs
  | c :: cs => c ≠ '\r' && hasNoBareReturn cs

end ApiDoc.Source
