import ApiDoc.Source.Tree
import ApiDoc.TypeExpr

/-!
# Items

Source text as far as it declares something. Of an expression only that is kept
which an annotation may hold, or on which the text behind it depends. An item
knows the items that are nested in it, wherever they stand.
-/

set_option autoImplicit false

namespace ApiDoc

namespace Source

inductive Expr where
  | literal (value : Literal)
  | negated (operand : Expr)
  | array (elements : List Expr)
  /-- An expression that ends a statement by itself: a block, a loop, a branch. -/
  | block
  /-- A call of a macro; `braced` when its arguments are in braces. -/
  | invocation (braced : Bool)
  | range
  | comparison
  | other
  deriving Inhabited

inductive Pattern where
  | name (name : String)
  /-- A constructor applied to patterns. -/
  | applied (arguments : List Pattern)
  | reference (pattern : Pattern)
  | tuple (members : List Pattern)
  /-- Two points alone. -/
  | rest
  /-- A range that lacks an end. -/
  | openRange
  | other
  deriving Inhabited

inductive AttributeForm where
  | bare
  | list (arguments : Trees)
  | value (e : Expr)
  deriving Inhabited

end Source

structure Attribute where
  absolute : Bool
  path : List String
  form : Source.AttributeForm
  deriving Inhabited

namespace Attribute

def name (a : Attribute) : String := a.path.getLast?.getD ""

def isNamed (a : Attribute) (name : String) : Bool := !a.absolute && a.path = [name]

end Attribute

namespace Source

structure Input where
  attributes : List Attribute
  pattern : Pattern
  type : TypeExpr
  deriving Inhabited

structure Function where
  attributes : List Attribute
  name : String
  inputs : List (Option Input)
  output : Option TypeExpr
  deriving Inhabited

structure NamedField where
  attributes : List Attribute
  name : String
  type : TypeExpr
  deriving Inhabited

inductive Fields where
  | unit
  | named (fields : List NamedField)
  | tuple (members : List TypeExpr)
  deriving Inhabited

structure Variant where
  attributes : List Attribute
  name : String
  fields : Fields
  deriving Inhabited

inductive Item where
  | struct (attributes : List Attribute) (name : String) (generics : List String)
      (fields : Fields)
  | enum (attributes : List Attribute) (name : String) (generics : List String)
      (variants : List Variant)
  | function (function : Function) (nested : List Item)
  | implementation (attributes : List Attribute) (self : TypeExpr) (methods : List Function)
      (nested : List Item)
  /-- Any other item; those without attributes of their own have none here. -/
  | other (attributes : List Attribute) (nested : List Item)
  deriving Inhabited

end Source

end ApiDoc
