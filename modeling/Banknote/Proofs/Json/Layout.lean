import Banknote.Proofs.Json.Numeral
import Mathlib.Tactic.Ring

/-!
# Decimals are read as they are laid out

`Numeral.ofDecimal` lays out a decimal in four ways, with or without an exponent and with zeros put
in front of its digits or behind them.

* Digits.  `takeDigits_eq`: digits are taken to the end as long as they fit.
* Numerals.  `Numeral.HasPower.real?_eq`: the number that is scaled has all digits of the numeral,
  and the power is the exponent less the number of digits after the point.
* Layouts.  `ofDecimal_hasPower`: the decimal itself is scaled, unless zeros are put behind its
  digits.
-/

namespace Banknote.Json

/-! ## Digits -/

/-- One more digit. -/
def addDigit (n : Nat) (c : Char) : Nat := n * 10 + digitValue c

theorem le_foldl_addDigit (digits : List Char) (n : Nat) : n ≤ digits.foldl addDigit n := by
  induction digits generalizing n with
  | nil => exact Nat.le_refl n
  | cons c digits ih =>
    have hdigit : n ≤ addDigit n c := by
      rw [addDigit]
      omega
    exact Nat.le_trans hdigit (ih _)

/-- Digits that fit are all taken. -/
theorem takeDigits_eq {digits : List Char} {n : Nat}
    (h : digits.foldl addDigit n ≤ maxSignificand) :
    takeDigits n digits = (digits.foldl addDigit n, []) := by
  induction digits generalizing n with
  | nil => rfl
  | cons c digits ih =>
    have hnext : n * 10 + digitValue c ≤ maxSignificand :=
      Nat.le_trans (le_foldl_addDigit digits _) h
    rw [takeDigits, if_pos hnext]
    exact ih h

theorem foldl_addDigit_toDigits (n : Nat) : (Nat.toDigits 10 n).foldl addDigit 0 = n :=
  digitsValue_toDigits n

theorem foldl_addDigit_zeros (n i : Nat) :
    (List.replicate i '0').foldl addDigit n = n * 10 ^ i := by
  induction i generalizing n with
  | zero => simp
  | succ i ih =>
    rw [List.replicate_succ, List.foldl_cons, ih, Nat.pow_succ, addDigit]
    have : digitValue '0' = 0 := rfl
    rw [this, Nat.add_zero, Nat.mul_assoc, Nat.mul_comm 10]

/-! ## Numerals -/

/-- All digits of a numeral. -/
def Numeral.digits (n : Numeral) : List Char := n.whole ++ n.fraction.getD []

/-- The number that a numeral stands for, with its sign. -/
def signed (negative : Bool) (x : Binary .double) : Binary .double :=
  if negative then x.neg else x

/-- The power of ten that the digits are scaled by. -/
inductive Numeral.HasPower (n : Numeral) : Int → Prop
  | plain (hexponent : n.exponent = none) : n.HasPower (-((n.fraction.getD []).length : Int))
  | shifted {e : Exponent} {k : Int} (hexponent : n.exponent = some e)
    (hpower : Numeral.exponentPower e = some k) :
    n.HasPower (-((n.fraction.getD []).length : Int) + k)

theorem Numeral.hasPower_of_none {n : Numeral} {k : Int} (h : n.exponent = none)
    (hk : -((n.fraction.getD []).length : Int) = k) : n.HasPower k := by
  rw [← hk]
  exact .plain h

theorem Numeral.hasPower_of_some {n : Numeral} {e : Exponent} {k k' : Int}
    (h : n.exponent = some e) (hpower : Numeral.exponentPower e = some k)
    (hk : -((n.fraction.getD []).length : Int) + k = k') : n.HasPower k' := by
  rw [← hk]
  exact .shifted h hpower

theorem Numeral.HasPower.real?_eq {n : Numeral} {k : Int} (h : n.HasPower k)
    (hfit : n.digits.foldl addDigit 0 ≤ maxSignificand) :
    n.real? = (scale 4 (Binary.ofNat (n.digits.foldl addDigit 0)) k).map (signed n.negative) := by
  rw [Numeral.digits, List.foldl_append] at hfit ⊢
  have hwhole : takeDigits 0 n.whole = (n.whole.foldl addDigit 0, []) :=
    takeDigits_eq (Nat.le_trans (le_foldl_addDigit _ _) hfit)
  have hfraction := takeDigits_eq hfit
  cases h with
  | plain hexponent =>
    simp [Numeral.real?, hwhole, hfraction, hexponent]
    rfl
  | shifted hexponent hpower =>
    simp [Numeral.real?, hwhole, hfraction, hexponent, hpower]
    rfl

/-! ## Layouts -/

theorem exponentPower_toDigits {k : Int} (h : k.natAbs ≤ maxExponent) :
    Numeral.exponentPower ⟨if k < 0 then .minus else .plus, Nat.toDigits 10 k.natAbs⟩ = some k := by
  simp only [Numeral.exponentPower, digitsValue_toDigits, if_pos h]
  by_cases hk : k < 0
  · rw [if_pos hk, if_pos rfl]
    congr 1
    omega
  · rw [if_neg hk, if_neg (by decide)]
    congr 1
    omega

/-- A decimal is laid out as a numeral with its digits and its power, or with zeros behind its
digits and one after the point. -/
theorem ofDecimal_hasPower (style : Numeral.Layout) {d : Decimal} (hd : d.digits ≠ 0)
    (hexponent : ((Nat.toDigits 10 d.digits).length + d.exponent - 1).natAbs ≤ maxExponent) :
    ((Numeral.ofDecimal style d).HasPower d.exponent ∧
        (Numeral.ofDecimal style d).digits.foldl addDigit 0 = d.digits) ∨
      (0 ≤ d.exponent ∧ (Nat.toDigits 10 d.digits).length + d.exponent ≤ style.maxWhole ∧
        (Numeral.ofDecimal style d).HasPower (-1) ∧
        (Numeral.ofDecimal style d).digits.foldl addDigit 0 =
          d.digits * 10 ^ (d.exponent.toNat + 1)) := by
  have hdigits := foldl_addDigit_toDigits d.digits
  have hlength : 0 < (Nat.toDigits 10 d.digits).length := Nat.length_toDigits_pos
  simp only [Numeral.ofDecimal, if_neg hd]
  generalize Nat.toDigits 10 d.digits = digits at *
  split
  · rename_i hrange
    simp only [Bool.and_eq_true, decide_eq_true_eq] at hrange
    refine .inr ⟨hrange.1, hrange.2, .plain rfl, ?_⟩
    dsimp only [Numeral.digits, Option.getD_some]
    rw [List.append_assoc, ← List.replicate_succ', List.foldl_append, hdigits,
      foldl_addDigit_zeros]
  rename_i hrange
  simp only [Bool.and_eq_true, decide_eq_true_eq, not_and, Int.not_le] at hrange
  refine .inl ?_
  split
  · rename_i hpoint
    simp only [Bool.and_eq_true, decide_eq_true_eq] at hpoint
    refine ⟨Numeral.hasPower_of_none rfl ?_, ?_⟩
    · dsimp only [Option.getD_some]
      rw [List.length_drop]
      omega
    · dsimp only [Numeral.digits, Option.getD_some]
      rw [List.take_append_drop, hdigits]
  split
  · rename_i hsmall
    simp only [Bool.and_eq_true, decide_eq_true_eq] at hsmall
    refine ⟨Numeral.hasPower_of_none rfl ?_, ?_⟩
    · dsimp only [Option.getD_some]
      rw [List.length_append, List.length_replicate]
      omega
    · dsimp only [Numeral.digits, Option.getD_some]
      rw [List.singleton_append, ← List.cons_append, ← List.replicate_succ, List.foldl_append,
        foldl_addDigit_zeros, Nat.zero_mul, hdigits]
  · have hrest : (if digits.length = 1 then none else some (digits.drop 1)).getD [] =
        digits.drop 1 := by
      split
      · rw [List.drop_of_length_le (by omega)]
        rfl
      · rfl
    refine ⟨Numeral.hasPower_of_some rfl (exponentPower_toDigits hexponent) ?_, ?_⟩
    · rw [hrest, List.length_drop]
      omega
    · rw [Numeral.digits, hrest, List.take_append_drop, hdigits]

theorem ofDecimal_negative (style : Numeral.Layout) (d : Decimal) :
    (Numeral.ofDecimal style d).negative = d.negative := by
  simp only [Numeral.ofDecimal]
  repeat' split
  all_goals rfl

/-- A laid-out decimal has a fraction or an exponent, so it is no whole number. -/
theorem value?_ofDecimal (style : Numeral.Layout) (d : Decimal) :
    (Numeral.ofDecimal style d).value? = (Numeral.ofDecimal style d).real?.map .real := by
  have hreal : ((Numeral.ofDecimal style d).fraction.isNone &&
      (Numeral.ofDecimal style d).exponent.isNone) = false := by
    simp only [Numeral.ofDecimal]
    repeat' split
    all_goals simp
  rw [Numeral.value?, hreal, Bool.false_and]
  rfl

end Banknote.Json
