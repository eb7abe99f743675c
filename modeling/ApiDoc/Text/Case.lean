import ApiDoc.Text.CaseTable

/-!
# Letter case of texts

Mapping a text maps each character by the tables; one character may become
several. The one rule that looks at neighbours is that of the capital sigma,
which is final where a word ends.
-/

set_option autoImplicit false

namespace ApiDoc.Text

def inRanges (n : Nat) (ranges : List (Nat × Nat)) : Bool :=
  ranges.any fun r => r.1 ≤ n && n ≤ r.2

def shiftIn? (n : Nat) : List (Nat × Nat × Nat × Int) → Option Int
  | [] => none
  | (first, last, step, shift) :: rows =>
    if first ≤ n ∧ n ≤ last ∧ (n - first) % step = 0 then some shift else shiftIn? n rows

def mapped (rows : List (Nat × Nat × Nat × Int)) (several : List (Nat × List Nat)) (c : Char) :
    List Char :=
  match several.lookup c.toNat with
  | some ns => ns.map Char.ofNat
  | none =>
    match shiftIn? c.toNat rows with
    | some shift => [Char.ofNat (c.toNat + shift).toNat]
    | none => [c]

def isAscii (c : Char) : Bool := c.toNat < 0x80

def lowerChar (c : Char) : List Char :=
  if isAscii c then [c.toLower] else mapped lowerRows lowerSeveral c

def upperChar (c : Char) : List Char :=
  if isAscii c then [c.toUpper] else mapped upperRows upperSeveral c

def isCased (c : Char) : Bool :=
  if isAscii c then c.isAlpha else inRanges c.toNat casedRanges

def isCaseIgnorable (c : Char) : Bool := inRanges c.toNat caseIgnorableRanges

def isUppercase (c : Char) : Bool :=
  if isAscii c then c.isUpper else inRanges c.toNat uppercaseRanges

def casedAhead (cs : List Char) : Bool := ((cs.dropWhile isCaseIgnorable).head?).any isCased

/-- The small letters of a text, after the characters before it, last first. -/
def lowerFrom (before : List Char) : List Char → List Char
  | [] => []
  | c :: cs =>
    let small :=
      if c = 'Σ' then if casedAhead before && !casedAhead cs then ['ς'] else ['σ']
      else lowerChar c
    small ++ lowerFrom (c :: before) cs

def toLower (cs : List Char) : List Char := lowerFrom [] cs

def toUpper (cs : List Char) : List Char := cs.flatMap upperChar

end ApiDoc.Text
