import Banknote.Number.Shortest

/-!
# Numerals

A `Numeral` is a JSON number as it is written: a sign, whole digits, perhaps a fraction, perhaps an
exponent.  `Numeral.value?` is the number that it stands for: a natural number below `2 ^ 64`, a
negative whole number down to `- 2 ^ 63`, or else a double.  `Numeral.ofNat`, `Numeral.ofInt` and
`Numeral.ofBinary` write numbers.

A double is read in three steps: the leading digits, as many as fit sixty-four bits, make the
significand; the digits that are left over and the exponent make a power of ten; the significand is
multiplied or divided by that power, each step rounded.
-/

namespace Banknote.Json

/-- The sign that an exponent is written with. -/
inductive ExponentSign where
  | none | plus | minus
  deriving DecidableEq, Repr, Inhabited

/-- The exponent part of a numeral. -/
structure Exponent where
  /-- The sign as written. -/
  sign : ExponentSign
  /-- The digits, at least one. -/
  digits : List Char
  deriving DecidableEq, Repr, Inhabited

/-- A number as it is written. -/
structure Numeral where
  /-- Whether a minus sign is in front. -/
  negative : Bool
  /-- The digits before the point. -/
  whole : List Char
  /-- The digits after the point, if there is a point. -/
  fraction : Option (List Char)
  /-- The exponent, if there is one. -/
  exponent : Option Exponent
  deriving DecidableEq, Repr, Inhabited

/-- The number that a numeral stands for. -/
inductive Number where
  /-- A whole number that is not negative. -/
  | natural (n : Nat)
  /-- The negative of a positive number. -/
  | negative (n : Nat)
  /-- Any other number. -/
  | real (x : Binary .double)
  deriving Repr, Inhabited

/-- The value of a decimal digit. -/
def digitValue (c : Char) : Nat := c.toNat - '0'.toNat

/-- The value of a list of decimal digits. -/
def digitsValue (digits : List Char) : Nat :=
  digits.foldl (fun n c => n * 10 + digitValue c) 0

/-- The greatest significand that a double is read from. -/
def maxSignificand : Nat := 1 <<< 64 - 1

/-- The greatest exponent that is taken at its word. -/
def maxExponent : Nat := 1 <<< 31 - 1

/-- Takes digits into a significand as long as it stays small enough; the digits not taken come
second. -/
def takeDigits (significand : Nat) : List Char → Nat × List Char
  | [] => (significand, [])
  | c :: rest =>
    let next := significand * 10 + digitValue c
    if next ≤ maxSignificand then takeDigits next rest else (significand, c :: rest)

/-- The power of ten, rounded to a double. -/
def powerOfTen (k : Nat) : Binary .double := Binary.ofNat (tenTo k)

/-- Multiplies by a power of ten; a number that becomes too large is refused.  An exponent below
-308 is taken off in pieces. -/
def scale : Nat → Binary .double → Int → Option (Binary .double)
  | 0, x, _ => some x
  | fuel + 1, x, k =>
    if k.natAbs ≤ 308 then
      if 0 ≤ k then
        let y := x.mul (powerOfTen k.toNat)
        if y.isInfinite then none else some y
      else some (x.div (powerOfTen (-k).toNat))
    else if x.isZero then some x
    else if 0 ≤ k then none
    else scale fuel (x.div (powerOfTen 308)) (k + 308)

namespace Numeral

/-- The digits of an exponent as a power of ten, refused when it is too large to matter otherwise
than by making the number zero or too large. -/
def exponentPower (e : Exponent) : Option Int :=
  let n := digitsValue e.digits
  if n ≤ maxExponent then some (if e.sign = .minus then -(n : Int) else n) else none

/-- The double that a numeral stands for; none if it is too large. -/
def real? (n : Numeral) : Option (Binary .double) :=
  let (significand, left) := takeDigits 0 n.whole
  let fraction := n.fraction.getD []
  let (significand, unread) := takeDigits significand fraction
  let power : Int := (left.length : Int) - ((fraction.length - unread.length : Nat) : Int)
  let sign (x : Binary .double) : Binary .double := if n.negative then x.neg else x
  match n.exponent with
  | none => (scale 4 (Binary.ofNat significand) power).map sign
  | some e =>
    match exponentPower e with
    | some k => (scale 4 (Binary.ofNat significand) (power + k)).map sign
    | none =>
      if significand ≠ 0 && e.sign ≠ .minus then none
      else some (sign (Binary.ofNat 0))

/-- The number that a numeral stands for; none if it is too large for a double. -/
def value? (n : Numeral) : Option Number :=
  let m := digitsValue n.whole
  if n.fraction.isNone && n.exponent.isNone && m ≤ maxSignificand then
    if n.negative then
      if m = 0 || 1 <<< 63 < m then some (.real (Binary.neg (Binary.ofNat m)))
      else some (.negative m)
    else some (.natural m)
  else n.real?.map .real

/-- The characters of an exponent sign. -/
def signText : ExponentSign → List Char
  | .none => []
  | .plus => ['+']
  | .minus => ['-']

/-- The characters of a numeral. -/
def text (n : Numeral) : List Char :=
  (if n.negative then ['-'] else []) ++ n.whole ++
    (match n.fraction with
      | some digits => '.' :: digits
      | none => []) ++
    (match n.exponent with
      | some e => 'e' :: signText e.sign ++ e.digits
      | none => [])

/-- The numeral of a natural number. -/
def ofNat (n : Nat) : Numeral := ⟨false, Nat.toDigits 10 n, none, none⟩

/-- How the decimals of a format are laid out. -/
structure Layout where
  /-- The greatest number of whole digits that is written without an exponent. -/
  maxWhole : Int
  /-- Below this many whole digits (which may be negative: zeros after the point) an exponent is
  written. -/
  minWhole : Int

/-- Doubles are written without an exponent from `0.00001` up to sixteen whole digits, singles from
`0.000001` up to thirteen. -/
def layout (f : BinaryFormat) : Layout :=
  if f = .single then ⟨13, -5⟩ else ⟨16, -4⟩

/-- The numeral of a decimal: at least one digit stands on either side of the point, and an exponent
has a sign and no leading zeros. -/
def ofDecimal (style : Layout) (d : Decimal) : Numeral :=
  let digits := Nat.toDigits 10 d.digits
  let whole : Int := digits.length + d.exponent
  if d.digits = 0 then ⟨d.negative, ['0'], some ['0'], none⟩
  else if 0 ≤ d.exponent && whole ≤ style.maxWhole then
    ⟨d.negative, digits ++ List.replicate d.exponent.toNat '0', some ['0'], none⟩
  else if 0 < whole && whole ≤ style.maxWhole then
    ⟨d.negative, digits.take whole.toNat, some (digits.drop whole.toNat), none⟩
  else if style.minWhole ≤ whole && whole ≤ 0 then
    ⟨d.negative, ['0'], some (List.replicate (-whole).toNat '0' ++ digits), none⟩
  else
    let power := whole - 1
    ⟨d.negative, digits.take 1, if digits.length = 1 then none else some (digits.drop 1),
      some ⟨if power < 0 then .minus else .plus, Nat.toDigits 10 power.natAbs⟩⟩

/-- The numeral of a finite binary number: its shortest decimal. -/
def ofBinary {f : BinaryFormat} (x : Binary f) : Numeral := ofDecimal (layout f) x.shortest

/-- The numeral that a number is written as. -/
def ofNumber : Number → Numeral
  | .natural n => ofNat n
  | .negative n => { ofNat n with negative := true }
  | .real x => ofBinary x

end Numeral

end Banknote.Json
