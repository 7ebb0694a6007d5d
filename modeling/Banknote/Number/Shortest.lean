import Banknote.Number.Binary

/-!
# Shortest decimals

The decimal that a binary number is written as: the one with the fewest digits that still rounds to
the number, and the nearest to it among those.  A decimal rounds to the number when it lies between
the midpoints to the two neighbours; the midpoints themselves count when the significand is even.

For one digit after the other `Grid.nearest?` looks at the two neighbours of the value on the grid
of decimals with that many digits; the first grid with a neighbour inside wins.
-/

namespace Banknote

/-- The number `digits * 10 ^ exponent` with a sign. -/
structure Decimal where
  /-- Whether the sign is minus. -/
  negative : Bool
  /-- The digits, as a natural number. -/
  digits : Nat
  /-- The power of ten of the last digit. -/
  exponent : Int
  deriving DecidableEq, Repr, Inhabited

/-- Ten to a power. -/
def tenTo (k : Nat) : Nat := Nat.pow 10 k

/-- A positive value and the ends of the interval that rounds to it, as multiples of
`1 / denominator`. -/
structure Rounding where
  /-- The value. -/
  value : Nat
  /-- The lower end. -/
  low : Nat
  /-- The upper end. -/
  high : Nat
  /-- Whether the ends belong to the interval. -/
  closed : Bool
  /-- The common denominator. -/
  denominator : Nat
  deriving Repr

namespace Rounding

/-- The rounding interval of a positive magnitude.  Below a power of two the neighbour is half as
far away. -/
def ofMagnitude (f : BinaryFormat) (magnitude : Nat) : Rounding :=
  let (m, e) := Binary.significand f magnitude
  let scale := 1 <<< e
  let below := if m == 1 <<< f.fractionBits && 0 < e then 1 else 2
  { value := 4 * m * scale
    low := (4 * m - below) * scale
    high := (4 * m + 2) * scale
    closed := m % 2 == 0
    denominator := 4 <<< f.depth }

/-- Whether `c * 10 ^ k` lies in the interval. -/
def contains (r : Rounding) (c : Nat) (k : Int) : Bool :=
  let point := c * tenTo k.toNat * r.denominator
  let scale := tenTo (-k).toNat
  if r.closed then r.low * scale ≤ point && point ≤ r.high * scale
  else r.low * scale < point && point < r.high * scale

/-- The distance of `c * 10 ^ k` from the value, in a unit that depends on `k` only. -/
def distance (r : Rounding) (c : Nat) (k : Int) : Nat :=
  let point := c * tenTo k.toNat * r.denominator
  let value := r.value * tenTo (-k).toNat
  (point - value) + (value - point)

/-- The neighbour of the value among the multiples of `10 ^ k` that lies in the interval, the nearer
one if both do, and the even one at a tie. -/
def nearest? (r : Rounding) (k : Int) : Option Nat :=
  let c := r.value * tenTo (-k).toNat / (tenTo k.toNat * r.denominator)
  match r.contains c k, r.contains (c + 1) k with
  | true, true =>
    let down := r.distance c k
    let up := r.distance (c + 1) k
    some (if down < up then c else if up < down then c + 1 else c + c % 2)
  | true, false => some c
  | false, true => some (c + 1)
  | false, false => none

/-- The decimal exponent of the value: the greatest `p` with `10 ^ p` at most the value, for values
whose exponent is at least `-fuel`. -/
def order (r : Rounding) : Nat → Int
  | 0 => 0
  | fuel + 1 =>
    if r.denominator ≤ r.value then ((Nat.toDigits 10 (r.value / r.denominator)).length : Int) - 1
    else order { r with value := r.value * 10 } fuel - 1

end Rounding

/-- Drops final zeros of the digits. -/
def Decimal.trimZeros : Nat → Decimal → Decimal
  | 0, d => d
  | fuel + 1, d =>
    if d.digits != 0 && d.digits % 10 == 0 then
      trimZeros fuel { d with digits := d.digits / 10, exponent := d.exponent + 1 }
    else d

/-- The shortest decimal of a finite number. -/
def Binary.shortest {f : BinaryFormat} (x : Binary f) : Decimal :=
  if x.magnitude == 0 then ⟨x.negative, 0, 0⟩
  else
    let r := Rounding.ofMagnitude f x.magnitude
    let top := r.order (f.depth + 1)
    let grids := (List.range (f.fractionBits + 2)).map fun (n : Nat) => top - (n : Int)
    match grids.findSome? fun k => (r.nearest? k).map fun c => (c, k) with
    | some (c, k) => Decimal.trimZeros 20 ⟨x.negative, c, k⟩
    | none => ⟨x.negative, 0, 0⟩

end Banknote
