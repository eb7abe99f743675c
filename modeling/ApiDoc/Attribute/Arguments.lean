import ApiDoc.Attribute.Fault
import ApiDoc.Source.File

/-!
# Arguments of attributes

An attribute has a list of keys. What stands behind a key is read as the key asks
for, so that the first thing that is wrong is the one that is reported.
-/

set_option autoImplicit false

namespace ApiDoc.Attribute

open Source (Expr Literal Trees Delimiter Grammar)

abbrev Arguments := StateT Trees (Except Fault)

namespace Arguments

variable {α : Type}

def parse (p : Grammar → Source.Parser α) : Arguments α := fun trees =>
  match (p (Grammar.ofTrees trees)).run { trees } with
  | some (a, c) => .ok (a, c.trees)
  | none => .error .malformed

def ahead (test : Trees → Bool) : Arguments Bool := do return test (← get)

def equals : Arguments Unit := parse fun _ => Source.Parser.mark "="

/-! ## Values -/

/-- A literal as text. Numbers keep their digits, and a sign stays in front. -/
def literalText : Expr → Except Fault String
  | .literal (.text s _) => .ok s
  | .literal (.integer n _) => .ok (String.ofList (Nat.toDigits 10 n))
  | .literal (.decimal digits _) => .ok digits
  | .literal (.boolean b) => .ok (if b then "true" else "false")
  | .literal .other => .error .unsupportedLiteral
  | .negated e => ("-" ++ ·) <$> literalText e
  | _ => .error .expectedLiteral

def textLiteral : Arguments String := parse fun _ => Source.Parser.textLiteral

def text : Arguments String := do
  equals
  textLiteral

def expr : Arguments Expr := do
  equals
  parse fun g => g.expr true

def anyText : Arguments String := do literalText (← expr)

def flag : Arguments Bool := do
  if ← ahead (Trees.isMark "=") then
    equals
    match ← parse fun _ => Source.Parser.literal with
    | .literal (.boolean b) => return b
    | _ => throw .malformed
  else return true

def natural : Arguments Nat := do
  equals
  match ← parse fun _ => Source.Parser.literal with
  | .literal (.integer n _) => if n < UInt64.size then return n else throw .malformed
  | _ => throw .malformed

def texts : Arguments (List String) := do
  match ← expr with
  | .array es => es.mapM fun e => (literalText e : Arguments String)
  | e => return [← literalText e]

def typeOfText (text : String) : Arguments TypeExpr :=
  match TypeExpr.ofText? text with
  | some t => return t
  | none => throw .malformed

def type : Arguments TypeExpr := do
  equals
  match ← get with
  | .literal (.text s suffixed) :: rest =>
    if suffixed then throw .malformed
    set rest
    typeOfText s
  | _ => parse fun g => g.typeExpr true

def types : Arguments (List TypeExpr) := do
  if ← ahead (Trees.isGroup .parenthesis) then
    parse fun g =>
      Source.Parser.inside .parenthesis (Source.Parser.terminated (g.typeExpr true))
  else (← texts).mapM typeOfText

/-! ## Keys -/

structure Key where
  absolute : Bool
  path : List String

namespace Key

def name (k : Key) : String := k.path.getLast?.getD ""

def isNamed (k : Key) (name : String) : Bool := !k.absolute && k.path = [name]

end Key

def key : Arguments Key := parse fun _ => do
  let absolute ← Source.Parser.mark? "::"
  let first ← Source.Parser.anyWord
  let others ← Source.Parser.repeatWhile (Trees.isMark "::") do
    Source.Parser.mark "::"
    Source.Parser.anyWord
  return ⟨absolute, first :: others⟩

variable {ρ : Type}

def entriesFrom (entry : ρ → Key → Arguments ρ) : Nat → ρ → Arguments ρ
  | 0, _ => throw .malformed
  | fuel + 1, r => do
    let r ← entry r (← key)
    if ← ahead List.isEmpty then return r
    parse fun _ => Source.Parser.mark ","
    if ← ahead List.isEmpty then return r
    entriesFrom entry fuel r

def entries (entry : ρ → Key → Arguments ρ) (r : ρ) : Arguments ρ := do
  entriesFrom entry ((← get).length + 1) r

def nested (entry : ρ → Key → Arguments ρ) (r : ρ) : Arguments ρ := do
  match ← get with
  | .group .parenthesis inner :: rest =>
    set inner
    let r ← entries entry r
    set rest
    return r
  | _ => throw .malformed

def runAll (a : Arguments α) (trees : Trees) : Except Fault α := do
  match ← a.run trees with
  | (value, []) => .ok value
  | _ => .error .malformed

end Arguments

def withEntries {ρ : Type} (a : Attribute) (entry : ρ → Arguments.Key → Arguments ρ) (r : ρ) :
    Except Fault ρ :=
  match a.form with
  | .list [] => .ok r
  | .list trees => (Arguments.entries entry r).runAll trees
  | _ => .ok r

end ApiDoc.Attribute
