/-!
# Characters with their places

YAML means different things in different columns, so every character carries
its line and column. Line breaks are unified, and the end of the text is a
character of its own, so that there always is a next one.
-/

set_option autoImplicit false

namespace ApiDoc.Yaml

structure Spot where
  char : Char
  line : Nat
  column : Nat
  index : Nat

namespace Spot

def isBlank (s : Spot) : Bool := s.char = ' ' || s.char = '\t'

def isBreak (s : Spot) : Bool := s.char = '\n' || s.char = '\u2028' || s.char = '\u2029'

def isEnd (s : Spot) : Bool := s.char = '\x00'

def isBreakOrEnd (s : Spot) : Bool := s.isBreak || s.isEnd

def isSpace (s : Spot) : Bool := s.isBlank || s.isBreakOrEnd

end Spot

def isAllowed (c : Char) : Bool :=
  let n := c.toNat
  n = 0x09 || n = 0x0A || n = 0x0D || (0x20 ≤ n && n ≤ 0x7E) || n = 0x85
    || (0xA0 ≤ n && n ≤ 0xFFFD && n ≠ 0xFEFF) || 0x10000 ≤ n

def spotsFrom (line column index : Nat) : List Char → List Spot
  | [] => [⟨'\x00', line, column, index⟩]
  | '\r' :: '\n' :: cs => ⟨'\n', line, column, index⟩ :: spotsFrom (line + 1) 0 (index + 2) cs
  | c :: cs =>
    if c = '\n' || c = '\r' || c = '\x85' then
      ⟨'\n', line, column, index⟩ :: spotsFrom (line + 1) 0 (index + 1) cs
    else if c = '\u2028' || c = '\u2029' then
      ⟨c, line, column, index⟩ :: spotsFrom (line + 1) 0 (index + 1) cs
    else ⟨c, line, column, index⟩ :: spotsFrom line (column + 1) (index + 1) cs

def spots? (text : String) : Option (List Spot) :=
  let cs := match text.toList with
    | '\uFEFF' :: cs => cs
    | cs => cs
  if cs.all isAllowed then some (spotsFrom 0 0 0 cs) else none

def charAt (n : Nat) (rest : List Spot) : Char := ((rest.drop n).head?.map (·.char)).getD '\x00'

def spaceAt (n : Nat) (rest : List Spot) : Bool := ((rest.drop n).head?.map (·.isSpace)).getD true

def columnOf (rest : List Spot) : Nat := (rest.head?.map (·.column)).getD 0

def atMarker (mark : Char) (rest : List Spot) : Bool :=
  columnOf rest = 0 && (rest.take 3).map (·.char) = [mark, mark, mark] && spaceAt 3 rest

def atDocumentMarker (rest : List Spot) : Bool := atMarker '-' rest || atMarker '.' rest

end ApiDoc.Yaml
