import ApiDoc.Source.Grammar.Expression

/-!
# Statements

Bindings, items and expressions. An expression that is no block needs a
semicolon unless it is the last.
-/

set_option autoImplicit false

namespace ApiDoc.Source.Grammar

open Source.Parser Source.Trees

variable (g : Grammar)

def binding : Parser Unit := do
  keyword "let"
  let _ ← g.pattern
  if ← mark? ":" then
    let _ ← g.typeExpr true
  if ← mark? "=" then
    let _ ← g.expr true
    if ← keyword? "else" then g.block
  mark ";"

def startsFunction (ts : Trees) : Bool :=
  isAny [isWord "unsafe", isWord "extern", isWord "fn"] ts

def startsConstItem (ts : Trees) : Bool :=
  isWord "const" ts
    && !(isGroup .brace (ts.drop 1) || isWord "static" (ts.drop 1) || isWord "move" (ts.drop 1)
      || isMark "|" (ts.drop 1)
      || (isWord "async" (ts.drop 1) && !startsFunction (ts.drop 2)))

def startsStaticItem (ts : Trees) : Bool :=
  isWord "static" ts && isAny [isWord "mut", isName] (ts.drop 1)

def startsItem (ts : Trees) : Bool :=
  isAny [isWord "pub", isWord "extern", isWord "use", startsStaticItem, startsConstItem,
      isWord "fn", isWord "mod", isWord "type", isWord "struct", isWord "enum", isWord "trait",
      isWord "impl", isWord "macro"] ts
    || (isWord "crate" ts && !isMark "::" (ts.drop 1))
    || (isWord "unsafe" ts && !isGroup .brace (ts.drop 1))
    || (isWord "async" ts && startsFunction (ts.drop 1))
    || (isWord "union" ts && isName (ts.drop 1))
    || (isWord "auto" ts && isWord "trait" (ts.drop 1))
    || (isWord "default" ts && isAny [isWord "unsafe", isWord "impl"] (ts.drop 1))

inductive MacroPlace where
  | item
  | statement
  | expression

def macroPlace (behind : Trees) : MacroPlace :=
  if isMark "!" behind then
    if isAny [isName, isWord "try"] (behind.drop 1) then .item
    else if isGroup .brace (behind.drop 1) && !isContinued (behind.drop 2) then .statement
    else .expression
  else .expression

def macroAhead : Parser (MacroPlace × Nat) := do
  let c ← get
  match (plainPath.run c : Option _) with
  | some (_, after) =>
    return (macroPlace after.trees, c.trees.length - after.trees.length)
  | none => return (.expression, 0)

def expressionStatement : Parser Unit := do
  let e ← g.early
  let closed ← mark? ";"
  let ends :=
    match e with
    | .block => true
    | .invocation braced => braced
    | _ => false
  guard (closed || ends || (← atEnd))

def statement : Parser Unit := do
  let start ← get
  let _ ← g.outerAttributes
  let next := (← get).trees
  match ← macroAhead with
  | (.statement, n) =>
    drop n
    mark "!"
    let _ ← anyGroup
    let _ ← mark? ";"
  | (place, _) =>
    let item :=
      match place with
      | .item => true
      | _ => false
    if isWord "let" next then g.binding
    else if startsItem next || item then
      set start
      g.item
    else g.expressionStatement

def statementsFrom : Nat → Parser Unit
  | 0 => failure
  | fuel + 1 => do
    let _ ← repeatWhile (isMark ";") (mark ";")
    if ← atEnd then return ()
    g.statement
    statementsFrom fuel

def blockStatements : Parser Unit := do g.statementsFrom ((← get).trees.length + 1)

end ApiDoc.Source.Grammar
