/-!
# The shortest decimal that reads back

A finite double is `m · 2^q`. The reals that round to it form an interval
around it, closed exactly when `m` is even. `Shortest.ofDouble` tries one
digit, two digits, … and takes the first decimal grid with a point inside;
of two points inside it takes the nearer.
-/

set_option autoImplicit false

namespace ApiDoc

structure Decimal where
  digits : Nat
  exponent : Int
  deriving Repr, DecidableEq

namespace Shortest

def significand (bits : UInt64) : Nat × Int :=
  let fraction : Nat := bits.toNat % Nat.pow 2 52
  let biased : Nat := bits.toNat / Nat.pow 2 52 % Nat.pow 2 11
  if biased = 0 then (fraction, -1074) else (fraction + Nat.pow 2 52, biased - 1075)

/-- The rounding interval of a double in quarters of its last place, as
numerators over one common denominator. -/
structure Interval where
  low : Nat
  value : Nat
  high : Nat
  denominator : Nat
  closed : Bool

/-- Below a power of two the neighbour is only half as far away. -/
def interval (m : Nat) (q : Int) : Interval :=
  let below := if m = Nat.pow 2 52 ∧ q > -1074 then 1 else 2
  let scale := Nat.pow 2 (q - 2).toNat
  { low := (4 * m - below) * scale
    value := 4 * m * scale
    high := (4 * m + 2) * scale
    denominator := Nat.pow 2 (2 - q).toNat
    closed := m % 2 = 0 }

def magnitude (i : Interval) : Int :=
  let whole := i.value / i.denominator
  if 0 < whole then (Nat.toDigits 10 whole).length
  else
    match (List.range 400).find? fun j => i.denominator ≤ i.value * Nat.pow 10 j with
    | some j => 1 - (j : Int)
    | none => 0

def onGrid (i : Interval) (p : Int) : Option Nat :=
  let up := Nat.pow 10 (-p).toNat
  let unit := i.denominator * Nat.pow 10 p.toNat
  let inside (d : Nat) : Bool :=
    if i.closed then i.low * up ≤ d * unit && d * unit ≤ i.high * up
    else i.low * up < d * unit && d * unit < i.high * up
  let value := i.value * up
  let floor := value / unit
  let near := value - floor * unit
  let far := (floor + 1) * unit - value
  let upper := near > far || (near = far && floor % 2 = 1)
  match inside floor, inside (floor + 1) with
  | true, true => some (if upper then floor + 1 else floor)
  | true, false => some floor
  | false, true => some (floor + 1)
  | false, false => none

/-- Digits of a positive finite double; seventeen always suffice. -/
def ofDouble (bits : UInt64) : Decimal :=
  let (m, q) := significand bits
  if m = 0 then ⟨0, 0⟩
  else
    let i := interval m q
    let k := magnitude i
    let grids := (List.range 17).map fun (n : Nat) => k - (n + 1 : Int)
    match grids.findSome? fun p => (onGrid i p).map fun d => (Decimal.mk d p) with
    | some d => d
    | none => ⟨0, 0⟩

end Shortest

/-- How a format spells a double: the sign that an exponent carries when it is
not negative. Exponents from -5 to 15 are written out in full. -/
structure FloatLayout where
  positiveSign : String

namespace FloatLayout

def digitText (n : Nat) : List Char := Nat.toDigits 10 n

def trim : Nat → Nat → Int → Nat × Int
  | 0, d, e => (d, e)
  | fuel + 1, d, e => if d % 10 = 0 ∧ d ≠ 0 then trim fuel (d / 10) (e + 1) else (d, e)

def magnitudeText (layout : FloatLayout) (digits : List Char) (point : Int) : List Char :=
  let n : Int := digits.length
  if n ≤ point ∧ point ≤ 16 then
    digits ++ List.replicate (point - n).toNat '0' ++ ['.', '0']
  else if 0 < point ∧ point ≤ 16 then
    digits.take point.toNat ++ ['.'] ++ digits.drop point.toNat
  else if -5 < point ∧ point ≤ 0 then
    ['0', '.'] ++ List.replicate (-point).toNat '0' ++ digits
  else
    let mantissa := match digits with
      | [] => ['0']
      | [d] => [d]
      | d :: ds => d :: '.' :: ds
    let e := point - 1
    let sign := if e < 0 then ['-'] else layout.positiveSign.toList
    mantissa ++ ['e'] ++ sign ++ digitText e.natAbs

def text (layout : FloatLayout) (x : Float) : List Char :=
  let bits := x.toBits
  let sign := if bits.toNat / Nat.pow 2 63 = 1 then ['-'] else []
  let decimal := Shortest.ofDouble bits
  let (digits, exponent) := trim 20 decimal.digits decimal.exponent
  if digits = 0 then sign ++ ['0', '.', '0']
  else
    let written := digitText digits
    sign ++ layout.magnitudeText written (written.length + exponent)

end FloatLayout

end ApiDoc
