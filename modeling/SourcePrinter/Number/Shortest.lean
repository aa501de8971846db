import SourcePrinter.Number.Binary64
import SourcePrinter.Number.Digits

/-! The shortest decimal of a floating-point number: the coarsest grid of tenths, units, tens and so
on that holds a point which rounds back to the number, and on that grid the point nearest to it,
the upper one of two equally near. Written without an exponent. -/

namespace SourcePrinter

/-- A positive number and the interval of the reals that round to it, all over one denominator. -/
structure Rounding where
  value : Nat
  low : Nat
  high : Nat
  denominator : Nat
  /-- The ends of the interval round to the number too. -/
  closed : Bool
  deriving Repr

namespace Rounding

/-- The number `m * 2 ^ q` among its neighbours. The one below is half as far away when `narrow`.
An end of the interval goes to the neighbour with the even significand. -/
def ofBinary (m : Nat) (q : Int) (narrow : Bool) : Rounding :=
  let scale := Nat.pow 2 (q - 2).toNat
  { value := 4 * m * scale
    low := (4 * m - if narrow then 1 else 2) * scale
    high := (4 * m + 2) * scale
    denominator := Nat.pow 2 (2 - q).toNat
    closed := m % 2 == 0 }

/-- The point `c * 10 ^ e` as a numerator over the denominator, times the power of ten that makes
it whole, and that power. -/
def point (r : Rounding) (c : Nat) (e : Int) : Nat × Nat :=
  (c * Nat.pow 10 e.toNat * r.denominator, Nat.pow 10 (-e).toNat)

/-- The point `c * 10 ^ e` rounds to the number. -/
def accepts (r : Rounding) (c : Nat) (e : Int) : Bool :=
  let (p, k) := r.point c e
  if r.closed then r.low * k ≤ p && p ≤ r.high * k else r.low * k < p && p < r.high * k

/-- The greatest `c` with `c * 10 ^ e` at most the number. -/
def floor (r : Rounding) (e : Int) : Nat :=
  r.value * Nat.pow 10 (-e).toNat / (Nat.pow 10 e.toNat * r.denominator)

/-- The number lies nearer to `c * 10 ^ e` than to the next point of the grid. -/
def nearerBelow (r : Rounding) (c : Nat) (e : Int) : Bool :=
  let (p, k) := r.point c e
  let (p', _) := r.point (c + 1) e
  2 * (r.value * k) < p + p'

/-- The point of one grid that rounds to the number, if there is one: the nearest if there are
several, the upper one of two equally near. -/
def onGrid (r : Rounding) (e : Int) : Option Nat :=
  let c := r.floor e
  let below := r.accepts c e
  let above := r.accepts (c + 1) e
  if below && (!above || r.nearerBelow c e) then some c
  else if above then some (c + 1)
  else none

/-- The first hit among `fuel` grids, from the one of `10 ^ e` to finer ones. -/
def firstGrid (r : Rounding) : Nat → Int → Option (Nat × Int)
  | 0, _ => none
  | fuel + 1, e =>
    match r.onGrid e with
    | some c => some (c, e)
    | none => firstGrid r fuel (e - 1)

end Rounding

namespace Binary64

/-- The interval of a positive finite number. The gap below a power of two is half the gap above
it, save at the smallest normal number. -/
def rounding (x : Binary64) : Rounding :=
  .ofBinary x.significand x.exponent (x.fraction == 0 && 1 < x.exponentField)

/-- The shortest decimal `c * 10 ^ e` of a positive finite number. No point of the grid of
`10 ^ 309` is finite, and each number has a point on the grid of `10 ^ -345`. -/
def shortest (x : Binary64) : Nat × Int :=
  (x.rounding.firstGrid 655 309).getD (0, 0)

end Binary64

/-- The number `c * 10 ^ e` without an exponent. -/
def positional (c : Nat) (e : Int) : List Char :=
  let ds := (digits 10 c).map upperDigit
  if 0 ≤ e then ds ++ List.replicate e.toNat '0'
  else
    let places := (-e).toNat
    let padded := List.replicate (places + 1 - ds.length) '0' ++ ds
    padded.take (padded.length - places) ++ '.' :: padded.drop (padded.length - places)

namespace Binary64

/-- The shortest decimal text of a number, with names for those that are not finite. -/
def decimal (x : Binary64) : String :=
  if x.isNaN then "NaN"
  else
    let sign := if x.isNegative then ['-'] else []
    if !x.isFinite then String.ofList (sign ++ "inf".toList)
    else if x.isZero then String.ofList (sign ++ ['0'])
    else
      let (c, e) := x.shortest
      String.ofList (sign ++ positional c e)

end Binary64

end SourcePrinter
