/-!
# Binary floating-point numbers

The finite and infinite values of a binary interchange format, with exact arithmetic on natural
numbers.  A value is a sign and a magnitude; the magnitude is the position of the absolute value
among the non-negative values of the format, which is also what its bits without the sign spell.
Everything is rounded to the nearest value, and a tie goes to the even significand.

`roundDiv_le` and `roundDiv_ge` say that `roundDiv` is within half a unit.
-/

namespace Banknote

/-- A binary interchange format. -/
structure BinaryFormat where
  /-- Bits of the fraction field. -/
  fractionBits : Nat
  /-- Bits of the exponent field. -/
  exponentBits : Nat
  deriving DecidableEq, Repr

namespace BinaryFormat

/-- Sixty-four bits. -/
def double : BinaryFormat := ⟨52, 11⟩

/-- Thirty-two bits. -/
def single : BinaryFormat := ⟨23, 8⟩

/-- The least positive value is two to the minus this power. -/
def depth (f : BinaryFormat) : Nat := 1 <<< (f.exponentBits - 1) - 1 + f.fractionBits - 1

/-- The magnitude of infinity. -/
def infinity (f : BinaryFormat) : Nat := (1 <<< f.exponentBits - 1) <<< f.fractionBits

end BinaryFormat

/-- A number of a binary format.  The value that is no number has no place here: no JSON text spells
it, and reading a numeral only divides by powers of ten. -/
@[ext] structure Binary (f : BinaryFormat) where
  /-- Whether the sign is minus. -/
  negative : Bool
  /-- The position of the absolute value among the non-negative values, zero first. -/
  magnitude : Nat
  /-- Nothing is greater than infinity. -/
  magnitude_le : magnitude ≤ f.infinity
  deriving DecidableEq, Repr

instance {f : BinaryFormat} : Inhabited (Binary f) := ⟨false, 0, Nat.zero_le _⟩

/-- The quotient rounded to the nearest natural number, a tie to the even one. -/
def roundDiv (num den : Nat) : Nat :=
  let q := num / den
  let r := num % den
  if 2 * r < den then q else if den < 2 * r then q + 1 else q + q % 2

/-- Rounding adds at most half a unit. -/
theorem roundDiv_le (num den : Nat) (h : 0 < den) :
    2 * den * roundDiv num den ≤ 2 * num + den := by
  have hd := Nat.div_add_mod num den
  have hm := Nat.mod_lt num h
  have hp := Nat.mod_lt (num / den) (show 2 > 0 by decide)
  simp only [roundDiv]
  split
  · rw [Nat.mul_assoc]; omega
  · split
    · rw [Nat.mul_assoc, Nat.mul_add]; omega
    · rw [Nat.mul_assoc, Nat.mul_add]
      rcases (show num / den % 2 = 0 ∨ num / den % 2 = 1 by omega) with h0 | h1
      · rw [h0]; omega
      · rw [h1]; omega

/-- Rounding takes away at most half a unit. -/
theorem roundDiv_ge (num den : Nat) (h : 0 < den) :
    2 * num ≤ 2 * den * roundDiv num den + den := by
  have hd := Nat.div_add_mod num den
  have hm := Nat.mod_lt num h
  have hp := Nat.mod_lt (num / den) (show 2 > 0 by decide)
  simp only [roundDiv]
  split
  · rw [Nat.mul_assoc]; omega
  · split
    · rw [Nat.mul_assoc, Nat.mul_add]; omega
    · rw [Nat.mul_assoc, Nat.mul_add]
      rcases (show num / den % 2 = 0 ∨ num / den % 2 = 1 by omega) with h0 | h1
      · rw [h0]; omega
      · rw [h1]; omega

namespace Binary

variable {f : BinaryFormat}

/-- The significand `m` and the scale `e` of a magnitude: the value is `m * 2 ^ e` times the least
positive value. -/
def significand (f : BinaryFormat) (magnitude : Nat) : Nat × Nat :=
  let unit := 1 <<< f.fractionBits
  if magnitude < unit then (magnitude, 0)
  else (unit + magnitude % unit, magnitude / unit - 1)

/-- The absolute value as a whole multiple of the least positive value. -/
def multiple (x : Binary f) : Nat :=
  let (m, e) := significand f x.magnitude
  m <<< e

/-- The magnitude nearest to `num / den`; what is too large becomes infinity. -/
def roundMagnitude (f : BinaryFormat) (num den : Nat) : Nat :=
  let scaled := num <<< f.depth
  let e := (scaled / den).log2 - f.fractionBits
  min (e <<< f.fractionBits + roundDiv scaled (den <<< e)) f.infinity

theorem roundMagnitude_le (f : BinaryFormat) (num den : Nat) :
    roundMagnitude f num den ≤ f.infinity :=
  Nat.min_le_right _ _

/-- The number with this sign whose absolute value is nearest to `num / den`. -/
def ofRatio (negative : Bool) (num den : Nat) : Binary f :=
  ⟨negative, roundMagnitude f num den, roundMagnitude_le f num den⟩

/-- The infinity of this sign. -/
def infinite (negative : Bool) : Binary f := ⟨negative, f.infinity, Nat.le_refl _⟩

/-- The number nearest to a natural number. -/
def ofNat (n : Nat) : Binary f := ofRatio false n 1

/-- The number with the other sign. -/
def neg (x : Binary f) : Binary f := { x with negative := !x.negative }

/-- Whether the number is an infinity. -/
def isInfinite (x : Binary f) : Bool := x.magnitude == f.infinity

/-- Whether the number is a zero of either sign. -/
def isZero (x : Binary f) : Bool := x.magnitude == 0

/-- The rounded product of finite numbers. -/
def mul (x y : Binary f) : Binary f :=
  ofRatio (x.negative != y.negative) (x.multiple * y.multiple) (1 <<< (2 * f.depth))

/-- The rounded quotient of finite numbers. -/
def div (x y : Binary f) : Binary f :=
  ofRatio (x.negative != y.negative) x.multiple y.multiple

/-- The nearest number of another format; an infinity stays one. -/
def convert (g : BinaryFormat) (x : Binary f) : Binary g :=
  if x.isInfinite then infinite x.negative
  else ofRatio x.negative x.multiple (1 <<< f.depth)

@[simp] theorem convert_negative (g : BinaryFormat) (x : Binary f) :
    (x.convert g).negative = x.negative := by
  rw [convert]
  split <;> rfl

theorem neg_convert (g : BinaryFormat) (x : Binary f) : x.neg.convert g = (x.convert g).neg := by
  have hinfinite : x.neg.isInfinite = x.isInfinite := rfl
  rw [convert, convert, hinfinite]
  split <;> rfl

/-- The place on the number line; both zeros have place 0. -/
def place (x : Binary f) : Int := if x.negative then -(x.magnitude : Int) else x.magnitude

/-- Numbers are equal when they have one place, so the two zeros are equal. -/
instance : BEq (Binary f) := ⟨fun x y => x.place == y.place⟩

/-- Whether `x` is at least `y`. -/
def atLeast (x y : Binary f) : Bool := y.place ≤ x.place

/-- The bits of the number: sign, exponent, fraction. -/
def bits (x : Binary f) : Nat :=
  (if x.negative then 1 <<< (f.exponentBits + f.fractionBits) else 0) + x.magnitude

end Binary

end Banknote
