import ApiDoc.Source.Parser

/-!
# The grammar

Types, expressions, patterns, statements and items contain one another. Each is
described here and in the modules below for a `Grammar` that stands for what it
contains; `Source.File` ties them together level by level. A caller may forbid
that a type is followed by further bounds, or that an expression is a struct
literal.
-/

set_option autoImplicit false

namespace ApiDoc.Source

/-! ## Paths and types -/

inductive SegmentArguments where
  | none
  | angled (types : List TypeExpr)
  /-- Arguments and result of a function. -/
  | signature
  deriving Inhabited

structure Segment where
  name : String
  arguments : SegmentArguments := .none
  deriving Inhabited

structure Path where
  qualified : Bool := false
  absolute : Bool := false
  first : Segment
  others : List Segment := []
  deriving Inhabited

def unknownType : TypeExpr := { name := "Unknown" }

namespace Path

def last (p : Path) : Segment := p.others.getLast?.getD p.first

def typeExpr (p : Path) : TypeExpr :=
  match p.last.arguments with
  | .angled types => ⟨p.last.name, types⟩
  | _ => ⟨p.last.name, []⟩

def isPlain (p : Path) : Bool :=
  !p.qualified && (p.first :: p.others).all fun s =>
    match s.arguments with
    | .none => true
    | _ => false

def isAssociated (p : Path) : Bool :=
  !p.qualified && !p.absolute && p.others.isEmpty &&
    match p.first.arguments with
    | .signature => false
    | _ => true

end Path

inductive Bound where
  | trait (type : TypeExpr)
  /-- A trait that must be constant; it is passed over. -/
  | constantTrait
  | other
  deriving Inhabited

namespace Bound

def trait? : Bound → Option TypeExpr
  | .trait t => some t
  | _ => none

def isTrait : Bound → Bool
  | .other => false
  | _ => true

def firstTrait (bounds : List Bound) : TypeExpr := (bounds.findSome? trait?).getD unknownType

end Bound

inductive TypeForm where
  | path (path : Path)
  /-- Bounds without a word in front. -/
  | traits (bounds : List Bound) (trailing : Bool)
  | whole (type : TypeExpr)
  deriving Inhabited

def TypeForm.typeExpr : TypeForm → TypeExpr
  | .path p => p.typeExpr
  | .traits bounds _ => Bound.firstTrait bounds
  | .whole t => t

structure Grammar where
  type : Bool → Parser TypeForm
  /-- A bound, which may list captured names or be constant where that is allowed. -/
  bound : Bool → Bool → Parser Bound
  expr : Bool → Parser Expr
  /-- An expression without operators between operands. -/
  unary : Bool → Parser Expr
  /-- An expression where a statement may end. -/
  early : Parser Expr
  pattern : Parser Pattern
  /-- The statements of a block. -/
  statements : Parser Unit
  /-- An item, which is noted. -/
  item : Parser Unit

namespace Grammar

open Source.Parser Source.Trees

variable (g : Grammar)

def typeExpr (plus : Bool) : Parser TypeExpr := do return (← g.type plus).typeExpr

def block : Parser Unit := inside .brace g.statements

/-! ## Attributes -/

def isPathWord : Trees → Bool :=
  isAny [isName, isWord "super", isWord "self", isWord "Self", isWord "crate"]

def plainPath : Parser (Bool × List String) := do
  let absolute ← mark? "::"
  guard (← ahead isPathWord)
  let first ← anyWord
  let others ← repeatWhile (isMark "::") do
    mark "::"
    guard (← ahead isPathWord)
    anyWord
  return (absolute, first :: others)

def attributeValue : Parser Expr := do
  mark "="
  (do let l ← literal; finish; return l) <|> do
    guard (!(← ahead (isMark "#")) || !(← beyond 1 (isGroup .bracket)))
    g.expr true

def attributeForm : Parser AttributeForm := do
  match (← get).trees with
  | .group _ inner :: _ =>
    drop 1
    return .list inner
  | ts =>
    if isMark "=" ts && !isMark "==" ts && !isMark "=>" ts then
      return .value (← g.attributeValue)
    else return .bare

def attributeBody : Parser Attribute := do
  if ← keyword? "unsafe" then
    return ⟨false, ["unsafe"], ← g.attributeForm⟩
  else
    let (absolute, path) ← plainPath
    return ⟨absolute, path, ← g.attributeForm⟩

def outerAttributes : Parser (List Attribute) :=
  repeatWhile (isMark "#") do
    mark "#"
    inside .bracket g.attributeBody

def innerAttributes : Parser (List Attribute) :=
  repeatWhile (fun ts => isMark "#" ts && isMark "!" (ts.drop 1)) do
    mark "#"
    mark "!"
    inside .bracket g.attributeBody

end Grammar

end ApiDoc.Source
