import ApiDoc.Source.Grammar.Statement
import ApiDoc.Source.Grammar.Item
import ApiDoc.Source.Reader

/-!
# Source files and types

Each level of the grammar is built on the level below. A text nests no deeper
than it has tokens, so a few levels for each token are enough.
-/

set_option autoImplicit false

namespace ApiDoc

namespace Source

namespace Grammar

def level : Nat → Grammar
  | 0 => {
    type := fun _ => failure
    bound := fun _ _ => failure
    expr := fun _ => failure
    unary := fun _ => failure
    early := failure
    pattern := failure
    statements := failure
    item := failure }
  | n + 1 => {
    type := fun plus c => typeForm (level n) plus c
    bound := fun capturing consts c => boundForm (level n) capturing consts c
    expr := fun structs c => expression (level n) structs c
    unary := fun structs c => unaryExpression (level n) structs c
    early := fun c => earlyExpression (level n) c
    pattern := fun c => singlePattern (level n) c
    statements := fun c => blockStatements (level n) c
    item := fun c => anyItem (level n) c }

def ofTrees (trees : Trees) : Grammar := level (4 * Tree.weightList trees + 8)

def file (g : Grammar) : Parser Nat := do
  let _ ← g.innerAttributes
  return (← Parser.repeatToEnd g.item).length

end Grammar

/-! ## Files -/

def dropLine : List Char → List Char
  | [] => []
  | '\n' :: cs => '\n' :: cs
  | _ :: cs => dropLine cs

/-- A first line that names an interpreter does not belong to the text; one that
starts an attribute does. -/
def dropInterpreter (cs : List Char) : List Char :=
  match cs with
  | '#' :: '!' :: rest =>
    match skipGaps rest.length rest with
    | '[' :: _ => cs
    | _ => dropLine cs
  | _ => cs

structure File where
  size : Nat
  items : List Item

def File.ofText? (text : String) : Option File := do
  let trees ← treesOfChars? (dropInterpreter (dropOrderMark text.toList))
  let (size, items) ← (Grammar.ofTrees trees).file.runAll trees
  pure { size, items }

end Source

namespace Attribute

def ofText? (text : String) : Option (List Attribute) := do
  let trees ← Source.trees? text
  let (attributes, _) ← (Source.Grammar.ofTrees trees).outerAttributes.runAll trees
  pure attributes

end Attribute

namespace TypeExpr

def ofTrees? (trees : Source.Trees) : Option TypeExpr := do
  let (t, _) ← ((Source.Grammar.ofTrees trees).typeExpr true).runAll trees
  pure t

def ofText? (text : String) : Option TypeExpr := do ofTrees? (← Source.trees? text)

end TypeExpr

end ApiDoc
