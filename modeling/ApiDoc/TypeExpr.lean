import ApiDoc.Ordered

/-!
# Type expressions

A type is the last segment of its path with its type arguments. Tuples and
slices have names of their own; the empty tuple is the unit type.
-/

set_option autoImplicit false

namespace ApiDoc

structure TypeExpr where
  name : String
  args : List TypeExpr := []
  deriving Inhabited

namespace TypeExpr

def tupleName : String := "()"

def sliceName : String := "[]"

def unit : TypeExpr := { name := tupleName }

def isUnit (t : TypeExpr) : Bool := t.name = tupleName && t.args.isEmpty

def isOption (t : TypeExpr) : Bool := t.name = "Option"

def firstArg? (t : TypeExpr) : Option TypeExpr := t.args.head?

mutual
/-- The written form. Of a slice only the first argument is shown. -/
def text : TypeExpr → String
  | ⟨name, args⟩ =>
    let shown := textList args
    if name = tupleName then "(" ++ ", ".intercalate shown ++ ")"
    else if name = sliceName then
      match shown with
      | [] => "[]"
      | inner :: _ => "[" ++ inner ++ "]"
    else if shown.isEmpty then name
    else name ++ "<" ++ ", ".intercalate shown ++ ">"
def textList : List TypeExpr → List String
  | [] => []
  | t :: ts => t.text :: textList ts
end

def flatWord (name : String) : String :=
  if name = tupleName then "Tuple" else if name = sliceName then "Array" else name

mutual
def flatName : TypeExpr → String
  | ⟨name, args⟩ => flatWord name ++ flatNames args
def flatNames : List TypeExpr → String
  | [] => ""
  | t :: ts => t.flatName ++ flatNames ts
end

abbrev Bindings := Ordered TypeExpr

mutual
def substitute (bindings : Bindings) : TypeExpr → TypeExpr
  | ⟨name, []⟩ => (bindings.get? name).getD ⟨name, []⟩
  | ⟨name, arg :: args⟩ => ⟨name, substitute bindings arg :: substituteList bindings args⟩
def substituteList (bindings : Bindings) : List TypeExpr → List TypeExpr
  | [] => []
  | t :: ts => substitute bindings t :: substituteList bindings ts
end

mutual
def height : TypeExpr → Nat
  | ⟨_, args⟩ => heightList args + 1
def heightList : List TypeExpr → Nat
  | [] => 0
  | t :: ts => max t.height (heightList ts)
end

def deferredNames : List String := ["Future", "BoxFuture", "LocalBoxFuture", "JoinHandle"]

def pinned? (t : TypeExpr) : Option TypeExpr :=
  t.firstArg?.bind fun inner =>
    let inner := if inner.name = "Box" then inner.firstArg?.getD inner else inner
    if inner.name = "Future" then some (inner.firstArg?.getD inner) else none

def delivered (t : TypeExpr) : TypeExpr :=
  if t.name = "Pin" then t.pinned?.getD t
  else if deferredNames.contains t.name then t.args.getLast?.getD t
  else t

end TypeExpr

end ApiDoc
