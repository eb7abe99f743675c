import ApiDoc.Source.Grammar.Pattern

/-!
# Operators between operands

An operand is followed by operators that bind at least as tightly as the one
before it. Comparisons are not chained, and a range is no left operand.
-/

set_option autoImplicit false

namespace ApiDoc.Source.Grammar

open Source.Parser Source.Trees

namespace Precedence

def lowest : Nat := 0
def assignment : Nat := 1
def range : Nat := 2
def disjunction : Nat := 3
def conjunction : Nat := 4
def comparison : Nat := 5
def bitOr : Nat := 6
def bitXor : Nat := 7
def bitAnd : Nat := 8
def shift : Nat := 9
def sum : Nat := 10
def product : Nat := 11
def cast : Nat := 12

end Precedence

/-- Longer signs come before those that start them. -/
def operators : List (String × Nat) :=
  ["+=", "-=", "*=", "/=", "%=", "^=", "&=", "|=", "<<=", ">>="].map (·, Precedence.assignment) ++ [
    ("&&", Precedence.conjunction), ("||", Precedence.disjunction), ("<<", Precedence.shift),
    (">>", Precedence.shift), ("==", Precedence.comparison), ("<=", Precedence.comparison),
    ("!=", Precedence.comparison), (">=", Precedence.comparison), ("+", Precedence.sum),
    ("-", Precedence.sum), ("*", Precedence.product), ("/", Precedence.product),
    ("%", Precedence.product), ("^", Precedence.bitXor), ("&", Precedence.bitAnd),
    ("|", Precedence.bitOr), ("<", Precedence.comparison), (">", Precedence.comparison)]

def operator? (ts : Trees) : Option (String × Nat) := operators.find? fun o => isMark o.1 ts

def isAssignment (ts : Trees) : Bool := isMark "=" ts && !isMark "=>" ts

def nextPrecedence (ts : Trees) : Nat :=
  match operator? ts with
  | some (_, precedence) => precedence
  | none =>
    if isAssignment ts then Precedence.assignment
    else if isMark ".." ts then Precedence.range
    else if isWord "as" ts then Precedence.cast
    else Precedence.lowest

def isApplied (ts : Trees) : Bool :=
  (isMark "." ts && !isMark ".." ts) || isMark "?" ts || isGroup .bracket ts
    || isGroup .parenthesis ts

def endsOpenRange (structs : Bool) (ts : Trees) : Bool :=
  isAny [List.isEmpty, isMark ",", isMark ";", isMark "?", isMark "=>", isMark "=", isMark "+",
      isMark "/", isMark "%", isMark "^", isMark ">", isMark "<=", isMark "!=", isMark "-=",
      isMark "*=", isMark "&=", isMark "|=", isMark "<<=", isWord "as"] ts
    || (isMark "." ts && !isMark ".." ts) || (!structs && isGroup .brace ts)

def isRange : Expr → Bool
  | .range => true
  | _ => false

def isComparison : Expr → Bool
  | .comparison => true
  | _ => false

variable (g : Grammar) (structs : Bool)

def closedRange : Parser Bool := do
  guard (!(← ahead (isMark "...")))
  if ← mark? "..=" then return true
  else
    mark ".."
    return false

mutual

def operations : Nat → Expr → Nat → Parser Expr
  | 0, _, _ => failure
  | fuel + 1, left, least => do
    if isRange left then return left
    let next := (← get).trees
    match operator? next with
    | some (signs, precedence) =>
      if precedence < least then return left
      let compares := precedence = Precedence.comparison
      guard (!compares || !isComparison left)
      drop signs.length
      operand fuel precedence
      operations fuel (if compares then .comparison else .other) least
    | none =>
      if least ≤ Precedence.assignment && isAssignment next then
        mark "="
        operand fuel Precedence.assignment
        operations fuel .other least
      else if least ≤ Precedence.range && isMark ".." next then
        rangeEnd fuel
        operations fuel .range least
      else if least ≤ Precedence.cast && isWord "as" next then
        keyword "as"
        let _ ← g.typeExpr false
        guard (!(← ahead isApplied))
        operations fuel .other least
      else return left

def operand : Nat → Nat → Parser Unit
  | 0, _ => failure
  | fuel + 1, precedence => do
    let e ← g.unary structs
    operandRest fuel e precedence

def operandRest : Nat → Expr → Nat → Parser Unit
  | 0, _, _ => failure
  | fuel + 1, e, precedence => do
    let next := (← get).trees
    let binds := nextPrecedence next
    if precedence < binds || (precedence = binds && binds = Precedence.assignment) then
      let e ← operations fuel e binds
      if (← get).trees.length = next.length then return ()
      operandRest fuel e precedence
    else return ()

def rangeEnd : Nat → Parser Unit
  | 0 => failure
  | fuel + 1 => do
    let closed ← closedRange
    if !closed && (← ahead (endsOpenRange structs)) then return ()
    operand fuel Precedence.range

end

def steps : Parser Nat := do return 3 * (← get).trees.length + 3

def withOperations (left : Expr) (least : Nat) : Parser Expr := do
  operations g structs (← steps) left least

end ApiDoc.Source.Grammar
