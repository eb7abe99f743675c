import ApiDoc.Source.Item

/-!
# Parsing token trees

A parser takes trees from the front of a list and may fail. On its way it notes
the items that it meets; a failed attempt leaves no trace.
-/

set_option autoImplicit false

namespace ApiDoc.Source

/-- The trees that are left, and the items met so far, newest first. -/
structure Cursor where
  trees : Trees
  found : List Item := []

abbrev Parser := StateT Cursor Option

namespace Parser

variable {α : Type}

def ahead (test : Trees → Bool) : Parser Bool := do return test (← get).trees

def beyond (n : Nat) (test : Trees → Bool) : Parser Bool := do
  return test ((← get).trees.drop n)

def drop (n : Nat) : Parser Unit := modify fun c => { c with trees := c.trees.drop n }

def atEnd : Parser Bool := ahead List.isEmpty

def finish : Parser Unit := do guard (← atEnd)

/-! ## Single tokens -/

def mark (signs : String) : Parser Unit := do
  guard (← ahead (Trees.isMark signs))
  drop signs.length

def mark? (signs : String) : Parser Bool := do
  if ← ahead (Trees.isMark signs) then
    drop signs.length
    return true
  else return false

def keyword (word : String) : Parser Unit := do
  guard (← ahead (Trees.isWord word))
  drop 1

def keyword? (word : String) : Parser Bool := do
  if ← ahead (Trees.isWord word) then
    drop 1
    return true
  else return false

def anyWord : Parser String := do
  match (← get).trees with
  | .word name :: _ =>
    drop 1
    return name
  | _ => failure

def name : Parser String := do
  guard (← ahead Trees.isName)
  anyWord

def lifetime : Parser Unit := do
  guard (← ahead Trees.isLifetime)
  drop 1

def lifetime? : Parser Bool := do
  if ← ahead Trees.isLifetime then
    drop 1
    return true
  else return false

def literal : Parser Expr := do
  match (← get).trees with
  | .literal l :: _ =>
    drop 1
    return .literal l
  | .word "true" :: _ =>
    drop 1
    return .literal (.boolean true)
  | .word "false" :: _ =>
    drop 1
    return .literal (.boolean false)
  | .mark '-' _ :: .literal l :: _ =>
    guard (← ahead Trees.isLiteral)
    drop 2
    return .negated (.literal l)
  | _ => failure

def textLiteral : Parser String := do
  match ← literal with
  | .literal (.text s _) => return s
  | _ => failure

/-! ## Groups -/

def inside (d : Delimiter) (p : Parser α) : Parser α := do
  let c ← get
  match c.trees with
  | .group found inner :: rest =>
    guard (found = d)
    set { c with trees := inner }
    let a ← p
    finish
    modify fun c => { c with trees := rest }
    return a
  | _ => failure

def anyGroup : Parser Delimiter := do
  match (← get).trees with
  | .group d _ :: _ =>
    drop 1
    return d
  | _ => failure

/-! ## Repetition -/

def repeatFrom (test : Trees → Bool) (p : Parser α) : Nat → Parser (List α)
  | 0 => failure
  | fuel + 1 => do
    if ← ahead test then
      let a ← p
      return a :: (← repeatFrom test p fuel)
    else return []

def repeatWhile (test : Trees → Bool) (p : Parser α) : Parser (List α) := do
  repeatFrom test p ((← get).trees.length + 1)

def repeatToEnd (p : Parser α) : Parser (List α) := repeatWhile (fun ts => !ts.isEmpty) p

def separatedFrom (stop : Trees → Bool) (separator : String) (p : Parser α) :
    Nat → Parser (List α)
  | 0 => failure
  | fuel + 1 => do
    if ← ahead stop then return []
    let a ← p
    if ← ahead stop then return [a]
    mark separator
    return a :: (← separatedFrom stop separator p fuel)

def separated (stop : Trees → Bool) (separator : String) (p : Parser α) : Parser (List α) := do
  separatedFrom stop separator p ((← get).trees.length + 1)

def terminated (p : Parser α) : Parser (List α) := separated List.isEmpty "," p

def chainFrom (stop : Trees → Bool) (separator : String) (p : Parser α) : Nat → Parser (List α)
  | 0 => failure
  | fuel + 1 => do
    if ← ahead stop then return []
    let a ← p
    if ← mark? separator then return a :: (← chainFrom stop separator p fuel)
    else return [a]

def chain (stop : Trees → Bool) (separator : String) (p : Parser α) : Parser (List α) := do
  chainFrom stop separator p ((← get).trees.length + 1)

/-! ## Items met on the way -/

def note (item : Item) : Parser Unit := modify fun c => { c with found := item :: c.found }

def collecting (p : Parser α) : Parser (α × List Item) := do
  let before := (← get).found
  modify fun c => { c with found := [] }
  let a ← p
  let met := (← get).found.reverse
  modify fun c => { c with found := before }
  return (a, met)

def runAll (p : Parser α) (trees : Trees) : Option (α × List Item) := do
  let (a, c) ← (do let a ← p; finish; return a : Parser α).run { trees }
  pure (a, c.found.reverse)

end Parser

end ApiDoc.Source
