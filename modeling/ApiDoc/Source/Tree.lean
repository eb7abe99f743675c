import ApiDoc.Source.Literal

/-!
# Token trees

Source text as a list of words, lifetimes, marks, literals and groups in
brackets of three kinds. A mark is joint when another mark follows at once.
-/

set_option autoImplicit false

namespace ApiDoc.Source

inductive Delimiter where
  | parenthesis
  | bracket
  | brace
  deriving DecidableEq, Repr

inductive Tree where
  | word (name : String)
  | lifetime (name : String)
  | mark (sign : Char) (joint : Bool)
  | literal (value : Literal)
  | group (delimiter : Delimiter) (inner : List Tree)
  deriving Inhabited

def keywords : List String := [
  "_", "abstract", "as", "async", "await", "become", "box", "break", "const", "continue",
  "crate", "do", "dyn", "else", "enum", "extern", "false", "final", "fn", "for", "if", "impl",
  "in", "let", "loop", "macro", "match", "mod", "move", "mut", "override", "priv", "pub", "ref",
  "return", "Self", "self", "static", "struct", "super", "trait", "true", "try", "type",
  "typeof", "unsafe", "unsized", "use", "virtual", "where", "while", "yield"]

mutual
def Tree.weight : Tree → Nat
  | .group _ inner => Tree.weightList inner + 1
  | _ => 1
def Tree.weightList : List Tree → Nat
  | [] => 0
  | t :: ts => t.weight + Tree.weightList ts
end

/-! ## What comes next -/

abbrev Trees := List Tree

namespace Trees

def isName : Trees → Bool
  | .word name :: _ => !keywords.contains name
  | _ => false

def isAnyWord : Trees → Bool
  | .word _ :: _ => true
  | _ => false

def isWord (name : String) : Trees → Bool
  | .word found :: _ => found = name
  | _ => false

def isLifetime : Trees → Bool
  | .lifetime _ :: _ => true
  | _ => false

def isGroup (d : Delimiter) : Trees → Bool
  | .group found _ :: _ => found = d
  | _ => false

def isNumber : Trees → Bool
  | .literal (.integer _ _) :: _ | .literal (.decimal _ _) :: _ => true
  | _ => false

def isLiteral : Trees → Bool
  | .literal _ :: _ => true
  | .word name :: _ => name = "true" || name = "false"
  | .mark '-' _ :: rest => isNumber rest
  | _ => false

def isText : Trees → Bool
  | .literal (.text _ _) :: _ => true
  | _ => false

def isMarks : List Char → Trees → Bool
  | [], _ => true
  | [c], .mark found _ :: _ => found = c
  | c :: cs, .mark found joint :: rest => found = c && joint && isMarks cs rest
  | _, _ => false

def isMark (signs : String) (ts : Trees) : Bool := isMarks signs.toList ts

def isAny (tests : List (Trees → Bool)) (ts : Trees) : Bool := tests.any fun test => test ts

end Trees

end ApiDoc.Source
