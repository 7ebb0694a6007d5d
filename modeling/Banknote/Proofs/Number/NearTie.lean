import Banknote.Proofs.Number.Shortest
import Mathlib.Algebra.Order.Ring.Abs
import Mathlib.Algebra.Order.Ring.Int
import Mathlib.Data.Int.GCD
import Mathlib.Data.Rat.Cast.Order
import Mathlib.Tactic.GCongr
import Mathlib.Tactic.Linarith
import Mathlib.Tactic.LinearCombination
import Mathlib.Tactic.Ring

/-!
# Decimals that come close to a tie

A decimal with few digits may lie so close to the midpoint of two singles that an error in the last
place of a double takes it there.  With two numbers `a` and `b` whose quotient is that of a power of
ten and a power of two, such a decimal is a pair of small factors `c` and `n` for which `c * a` is
almost `n * b`.

* One scale.  `Certifies.exists_eq_mul`: if `p` and `q` are such factors and good enough, then all
  others are multiples of them.
* All scales.  `convergent` finds the factors by continued fractions, and `eq_of_near` draws the
  conclusion: there is one decimal only that comes close to a midpoint and is not the midpoint
  itself, `7038531 * 10 ^ (-32)`.
-/

namespace Banknote.NearTie

/-! ## One scale -/

variable {a b p q c n : Nat}

/-- How far two multiples are apart. -/
def gap (a b c n : Nat) : Nat := (c * a - n * b) + (n * b - c * a)

theorem gap_eq (a b c n : Nat) : (gap a b c n : Int) = |(c : Int) * a - n * b| := by
  rw [gap, ← Int.natCast_mul, ← Int.natCast_mul]
  generalize c * a = x
  generalize n * b = y
  rcases Nat.le_total x y with h | h
  · rw [abs_sub_comm, abs_of_nonneg (by omega)]
    omega
  · rw [abs_of_nonneg (by omega)]
    omega

theorem cast_gap (a b c n : Nat) : (gap a b c n : ℚ) = |(c : ℚ) * a - n * b| := by
  exact_mod_cast congrArg (Int.cast : Int → ℚ) (gap_eq a b c n)

/-- Factors that are good enough for all near misses to be multiples of them. -/
structure Certifies (a b p q : Nat) : Prop where
  pos : 0 < p
  coprime : Nat.Coprime p q
  small : p * a + 2 ^ 51 * gap a b p q < 2 ^ 26 * a

/-- Two pairs of factors are in proportion if both come close. -/
theorem Certifies.proportional (h : Certifies a b p q) (hb : 0 < b) (hc : c * a ≤ 2 ^ 25 * b)
    (hnear : 2 ^ 51 * gap a b c n ≤ c * a) : c * q = n * p := by
  have ha : 0 < a := Nat.pos_of_ne_zero fun h0 => by simpa [h0] using h.small
  by_contra hne
  have hone : 1 ≤ |(c * q : Int) - n * p| :=
    Int.one_le_abs (sub_ne_zero.2 (by exact_mod_cast hne))
  -- The cross product of the two pairs, times `b`, is a combination of the two gaps.
  have hcross : |(c * q : Int) - n * p| * b ≤ p * gap a b c n + c * gap a b p q := by
    rw [gap_eq, gap_eq]
    calc |(c * q : Int) - n * p| * b = |((c * q : Int) - n * p) * b| := by
          rw [abs_mul, abs_of_nonneg (Int.natCast_nonneg b)]
      _ = |(p : Int) * ((c : Int) * a - n * b) - c * ((p : Int) * a - q * b)| := by
          congr 1
          ring
      _ ≤ |(p : Int) * ((c : Int) * a - n * b)| + |(c : Int) * ((p : Int) * a - q * b)| :=
          abs_sub _ _
      _ = _ := by
          rw [abs_mul, abs_mul, abs_of_nonneg (Int.natCast_nonneg p),
            abs_of_nonneg (Int.natCast_nonneg c)]
  have hcross : b ≤ p * gap a b c n + c * gap a b p q := by
    have hb : (b : Int) ≤ |(c * q : Int) - n * p| * b :=
      le_mul_of_one_le_left (Int.natCast_nonneg b) hone
    exact_mod_cast hb.trans hcross
  have hlt : 2 ^ 51 * (a * b) < 2 ^ 51 * (a * b) :=
    calc 2 ^ 51 * (a * b) ≤ 2 ^ 51 * (a * (p * gap a b c n + c * gap a b p q)) := by gcongr
      _ = a * (p * (2 ^ 51 * gap a b c n) + c * (2 ^ 51 * gap a b p q)) := by ring
      _ ≤ a * (p * (c * a) + c * (2 ^ 51 * gap a b p q)) := by gcongr
      _ = (c * a) * (p * a + 2 ^ 51 * gap a b p q) := by ring
      _ ≤ (2 ^ 25 * b) * (p * a + 2 ^ 51 * gap a b p q) := by gcongr
      _ < (2 ^ 25 * b) * (2 ^ 26 * a) := by gcongr; exact h.small
      _ = _ := by ring
  exact Nat.lt_irrefl _ hlt

/-- All factors that come close are multiples of those that certify. -/
theorem Certifies.exists_eq_mul (h : Certifies a b p q) (hb : 0 < b) (hc : c * a ≤ 2 ^ 25 * b)
    (hnear : 2 ^ 51 * gap a b c n ≤ c * a) : ∃ t, c = t * p ∧ n = t * q := by
  have hproportional := h.proportional hb hc hnear
  obtain ⟨t, rfl⟩ : p ∣ c :=
    h.coprime.dvd_of_dvd_mul_right ⟨n, hproportional.trans (Nat.mul_comm n p)⟩
  refine ⟨t, Nat.mul_comm p t, ?_⟩
  refine Nat.eq_of_mul_eq_mul_right h.pos ?_
  rw [← hproportional]
  ring

/-! ## All scales -/

/-- The exponent of the finest decimal grid whose steps are at least two to the power `e - 149`,
or almost so. -/
def gridExponent (e : Nat) : Int := -((149 - (e : Int)) * 30103 / 100000)

/-- A step of that grid in units of which `binaryUnit` is half of two to the power `e - 149`. -/
def decimalUnit (e : Nat) : Nat := tenTo (gridExponent e).toNat * 2 ^ 150

/-- Half of two to the power `e - 149` in the same units. -/
def binaryUnit (e : Nat) : Nat := tenTo (-gridExponent e).toNat * 2 ^ e

/-- The last convergent of a continued fraction whose numerator is at most `bound`; `a` and `b` are
what is left to be divided, and `p`, `q` and `p'`, `q'` the last two convergents. -/
def convergent (bound : Nat) : Nat → Nat → Nat → Nat → Nat → Nat → Nat → Nat × Nat
  | 0, _, _, _, _, p', q' => (p', q')
  | fuel + 1, a, b, p, q, p', q' =>
    if b = 0 then (p', q')
    else
      let next := a / b * p' + p
      if bound < next then (p', q')
      else convergent bound fuel b (a % b) p' q' next (a / b * q' + q)

/-- Factors of the units of a scale. -/
def factors (e : Nat) : Nat × Nat :=
  let a := decimalUnit e
  let b := binaryUnit e
  convergent 47453132 100 b (a % b) 0 1 1 (a / b)

/-- What is computed for a scale: the factors certify; the next finer decimal grid is much too fine;
and if the factors come close and no multiple of them is too large, they are those of the one
decimal. -/
def Checked (e a b p q : Nat) : Prop :=
  (0 < p ∧ Nat.gcd p q = 1 ∧ p * a + 2 ^ 51 * gap a b p q < 2 ^ 26 * a) ∧
    2 ^ 26 * a + 20 * b < 2 ^ 26 * (20 * b) ∧
    (gap a b p q = 0 ∨ p * a < 2 ^ 51 * gap a b p q ∨ 2 ^ 25 ≤ q ∨ q % 2 = 0 ∨
      e = 42 ∧ p = 7038531 ∧ 2 ^ 25 ≤ 2 * q)

instance (e a b p q : Nat) : Decidable (Checked e a b p q) :=
  inferInstanceAs (Decidable (_ ∧ _))

theorem checked_all : ∀ e < 254,
    Checked e (decimalUnit e) (binaryUnit e) (factors e).1 (factors e).2 := by
  decide +kernel

variable {e : Nat}

theorem binaryUnit_pos (e : Nat) : 0 < binaryUnit e :=
  Nat.mul_pos (Nat.pow_pos (by decide)) (Nat.two_pow_pos e)

/-- At every scale there is at most one pair of factors that come close without being exact. -/
theorem Checked.exact_or_exception (h : Checked e a b p q) (hb : 0 < b) (hc : 0 < c)
    (hodd : n % 2 = 1) (hn : n < 2 ^ 25) (hlarge : c * a ≤ 2 ^ 25 * b)
    (hnear : 2 ^ 51 * gap a b c n ≤ c * a) : gap a b c n = 0 ∨ e = 42 ∧ c = 7038531 := by
  obtain ⟨⟨hp, hcoprime, hsmall⟩, _, hcases⟩ := h
  have hcertifies : Certifies a b p q := ⟨hp, hcoprime, hsmall⟩
  obtain ⟨t, rfl, rfl⟩ := hcertifies.exists_eq_mul hb hlarge hnear
  have hgap : gap a b (t * p) (t * q) = t * gap a b p q := by
    simp only [gap, Nat.mul_assoc, ← Nat.mul_sub, ← Nat.mul_add]
  have ht : 0 < t := Nat.pos_of_mul_pos_right hc
  rcases hcases with hzero | hfar | hbig | heven | ⟨rfl, rfl, htwice⟩
  · exact .inl (by rw [hgap, hzero, Nat.mul_zero])
  · rw [hgap, Nat.mul_assoc t p a, Nat.mul_left_comm] at hnear
    exact absurd hnear (Nat.not_le.2 (Nat.mul_lt_mul_of_pos_left hfar ht))
  · have := Nat.le_mul_of_pos_left q ht
    omega
  · rw [Nat.mul_mod, heven, Nat.mul_zero] at hodd
    cases hodd
  · have hone : t = 1 := by
      by_contra hne
      have := Nat.mul_le_mul_right q (show 2 ≤ t by omega)
      omega
    rw [hone]
    exact .inr ⟨rfl, rfl⟩

/-- Half of two to the power `e - 149`. -/
def halfScale (e : Nat) : ℚ := 2 ^ e / 2 ^ 150

theorem halfScale_pos (e : Nat) : 0 < halfScale e := by
  rw [halfScale]
  positivity

theorem zpow_gridExponent (e : Nat) :
    (10 : ℚ) ^ gridExponent e * binaryUnit e = decimalUnit e * halfScale e := by
  have hten : (0 : ℚ) < tenTo (-gridExponent e).toNat := by exact_mod_cast tenTo_pos _
  rw [zpow_eq_tenTo_div, binaryUnit, decimalUnit, halfScale]
  push_cast
  field_simp
  norm_num

/-- Steps that are almost as long as the scale are steps of its grid or longer. -/
theorem gridExponent_le {k : Int} (he : e < 254)
    (hstep : 2 * halfScale e * (1 - 1 / 2 ^ 26) ≤ (10 : ℚ) ^ k) : gridExponent e ≤ k := by
  by_contra hnot
  have hb : (0 : ℚ) < binaryUnit e := by exact_mod_cast binaryUnit_pos e
  have hfiner : (2 : ℚ) ^ 26 * decimalUnit e + 20 * binaryUnit e <
      2 ^ 26 * (20 * binaryUnit e) := by
    exact_mod_cast (checked_all e he).2.1
  have hten : (10 : ℚ) ^ k ≤ 10 ^ (gridExponent e - 1) :=
    zpow_le_zpow_right₀ (by norm_num) (by omega)
  rw [zpow_sub_one₀ (by norm_num)] at hten
  have hunits := zpow_gridExponent e
  have hle : 2 * halfScale e * (1 - 1 / 2 ^ 26) * binaryUnit e ≤
      decimalUnit e * halfScale e * (10 : ℚ)⁻¹ :=
    calc _ ≤ 10 ^ gridExponent e * (10 : ℚ)⁻¹ * binaryUnit e :=
          mul_le_mul_of_nonneg_right (hstep.trans hten) hb.le
      _ = _ := by rw [mul_right_comm, hunits]
  have hle : 2 * (1 - 1 / 2 ^ 26) * binaryUnit e ≤ decimalUnit e * (10 : ℚ)⁻¹ :=
    le_of_mul_le_mul_left (by linarith) (halfScale_pos e)
  linarith

/-- A decimal on a grid that is not much finer than the scale, close to an odd multiple of half the
scale, is that multiple; one decimal is an exception. -/
theorem eq_of_near {k : Int} (he : e < 254) (hc : 0 < c) (hodd : n % 2 = 1) (hn : n < 2 ^ 25)
    (hstep : 2 * halfScale e * (1 - 1 / 2 ^ 26) ≤ (10 : ℚ) ^ k)
    (hlarge : (c : ℚ) * 10 ^ k ≤ 2 ^ 25 * halfScale e)
    (hnear : |(c : ℚ) * 10 ^ k - n * halfScale e| ≤ c * 10 ^ k / 2 ^ 51) :
    (c : ℚ) * 10 ^ k = n * halfScale e ∨ c = 7038531 ∧ k = -32 := by
  have hb : (0 : ℚ) < binaryUnit e := by exact_mod_cast binaryUnit_pos e
  have hs := halfScale_pos e
  obtain ⟨i, rfl⟩ := Int.le.dest (gridExponent_le he hstep)
  -- In the units of the scale the decimal is `c * 10 ^ i` steps of the grid.
  have hvalue : (c : ℚ) * 10 ^ (gridExponent e + i) * binaryUnit e =
      (c * 10 ^ i * decimalUnit e : ℕ) * halfScale e := by
    rw [zpow_add₀ (by norm_num), zpow_natCast]
    push_cast
    linear_combination (c : ℚ) * 10 ^ i * zpow_gridExponent e
  generalize hv : (c : ℚ) * 10 ^ (gridExponent e + i) = v at *
  have hlarge : c * 10 ^ i * decimalUnit e ≤ 2 ^ 25 * binaryUnit e := by
    have hmul := mul_le_mul_of_nonneg_right hlarge hb.le
    rw [hvalue, mul_right_comm (2 ^ 25 : ℚ)] at hmul
    exact_mod_cast le_of_mul_le_mul_right hmul hs
  have hgap : |v - n * halfScale e| * binaryUnit e =
      gap (decimalUnit e) (binaryUnit e) (c * 10 ^ i) n * halfScale e := by
    rw [cast_gap, ← abs_of_pos hb, ← abs_of_pos hs, ← abs_mul, ← abs_mul, abs_of_pos hb,
      abs_of_pos hs]
    congr 1
    push_cast at hvalue ⊢
    linear_combination hvalue
  have hnear : 2 ^ 51 * gap (decimalUnit e) (binaryUnit e) (c * 10 ^ i) n ≤
      c * 10 ^ i * decimalUnit e := by
    have hmul := mul_le_mul_of_nonneg_right hnear hb.le
    rw [hgap, div_mul_eq_mul_div, hvalue, le_div_iff₀ (by positivity), mul_right_comm] at hmul
    rw [Nat.mul_comm]
    exact_mod_cast le_of_mul_le_mul_right hmul hs
  rcases (checked_all e he).exact_or_exception (binaryUnit_pos e) (by positivity) hodd hn hlarge
    hnear with hzero | ⟨rfl, hexception⟩
  · rw [hzero, Nat.cast_zero, zero_mul, mul_eq_zero, abs_eq_zero] at hgap
    exact .inl (sub_eq_zero.1 (hgap.resolve_right hb.ne'))
  · have hi : i = 0 := by
      cases i with
      | zero => rfl
      | succ i =>
        rw [pow_succ, ← Nat.mul_assoc] at hexception
        omega
    subst hi
    exact .inr ⟨by simpa using hexception, by decide +kernel⟩

end Banknote.NearTie
