import Banknote.Json.Reader
import Banknote.Proofs.Except
import Banknote.Proofs.Json.Layout
import Banknote.Proofs.Json.Scale
import Banknote.Proofs.Number.NearTie

/-!
# Singles are read back

A single is written as its shortest decimal, and the decimal is read as a double first and rounded
to a single then.  Rounding twice gives the single again.

* Intervals.  The interval of a single is given by the scale of the single, except at the powers of
  two (`Inner.ends`).
* Shortest decimals.  `Inner.exists_shortest` collects what is known about the digits and the
  exponent.
* Reading.  `Inner.magnitude_of_reads`: a double that is close to the decimal is rounded to the
  single, since it cannot lie beyond a midpoint that the decimal does not reach.  The one decimal
  that comes too close is computed.
* Documents.  `single_of_decimal` goes on to the numeral that the decimal is laid out as.
* Powers of two.  `clear_twoPow` computes that their decimals stay far from the midpoints.
* All singles.  `single_ofBinary`.
-/

namespace Banknote

open Json (Doc Numeral scale)

/-! ## Intervals -/

/-- A single above zero that is not the least one of its binade, or is in the lowest binade: the
numbers next to it are equally far away. -/
structure Inner (magnitude m e : Nat) : Prop where
  significand : Binary.significand .single magnitude = (m, e)
  pos : 0 < m
  inner : m = 2 ^ 23 → e = 0
  scale_lt : e < 254

variable {magnitude m e : Nat}

open NearTie (halfScale halfScale_pos)

theorem Inner.lt (h : Inner magnitude m e) : m < 2 ^ 24 := by
  have := Binary.significand_lt .single magnitude
  rw [h.significand] at this
  exact this

theorem single_depth : BinaryFormat.single.depth = 149 := rfl

theorem Inner.ends (h : Inner magnitude m e) :
    (Rounding.ofMagnitude .single magnitude).center = 2 * m * halfScale e ∧
      (Rounding.ofMagnitude .single magnitude).lower = (2 * m - 1) * halfScale e ∧
      (Rounding.ofMagnitude .single magnitude).upper = (2 * m + 1) * halfScale e := by
  have hbelow : (if m == 1 * 2 ^ BinaryFormat.single.fractionBits && decide (0 < e) then 1
      else 2) = 2 := by
    refine if_neg fun hedge => ?_
    simp only [Bool.and_eq_true, beq_iff_eq, decide_eq_true_eq] at hedge
    have := h.inner hedge.1
    omega
  have hcast : ((4 * m - 2 : ℕ) : ℚ) = 4 * m - 2 := by
    have := h.pos
    rw [Nat.cast_sub (by omega)]
    push_cast
    rfl
  simp only [Rounding.center, Rounding.lower, Rounding.upper, Rounding.ofMagnitude, h.significand,
    hbelow, Nat.shiftLeft_eq, single_depth, halfScale]
  push_cast
  rw [hcast]
  refine ⟨?_, ?_, ?_⟩ <;> ring

theorem Inner.centered (h : Inner magnitude m e) :
    (Rounding.ofMagnitude .single magnitude).Centered := by
  obtain ⟨hcenter, hlower, hupper⟩ := h.ends
  refine ⟨Rounding.denominator_pos _ _, ?_, ?_⟩
  · rw [hlower, hcenter]
    linarith [halfScale_pos e]
  · rw [hlower, hcenter, hupper]
    ring

theorem Inner.le_two_pow (h : Inner magnitude m e) : 2 * (m : ℚ) + 1 ≤ 2 ^ 25 - 1 := by
  have hle : 2 * m + 2 ≤ 2 ^ 25 := by
    have := h.lt
    omega
  have hle : 2 * (m : ℚ) + 2 ≤ 2 ^ 25 := by exact_mod_cast hle
  linarith

/-! ## Shortest decimals -/

/-- A decimal in the interval of a single, with few digits and a moderate exponent. -/
structure DecimalOf (magnitude : Nat) (c : Nat) (k : Int) : Prop where
  pos : 0 < c
  lt : c < 2 ^ 29
  low : -46 ≤ k
  high : k ≤ 38
  holds : (Rounding.ofMagnitude .single magnitude).Holds (c * 10 ^ k)

/-- A decimal of a single that is no further from the single than half a step of its grid. -/
structure NearestDecimal (magnitude : Nat) (c : Nat) (k : Int) : Prop
    extends DecimalOf magnitude c k where
  near : 2 * |(c : ℚ) * 10 ^ k - (Rounding.ofMagnitude .single magnitude).center| ≤ 10 ^ k

theorem Inner.magnitude_ne_zero (h : Inner magnitude m e) : magnitude ≠ 0 := by
  rintro rfl
  have hzero : Binary.significand .single 0 = (0, 0) := rfl
  have hm := congrArg Prod.fst (hzero.symm.trans h.significand)
  exact Nat.ne_of_lt h.pos hm

theorem Inner.denominator_le (h : Inner magnitude m e) :
    (Rounding.ofMagnitude .single magnitude).denominator ≤
      (Rounding.ofMagnitude .single magnitude).value * 10 ^ BinaryFormat.single.depth := by
  simp only [Rounding.ofMagnitude, h.significand, Nat.shiftLeft_eq, Nat.one_mul]
  have hone : 1 ≤ m * 2 ^ e := Nat.mul_pos h.pos (Nat.two_pow_pos e)
  calc 4 * 2 ^ BinaryFormat.single.depth ≤ 4 * 10 ^ BinaryFormat.single.depth :=
        Nat.mul_le_mul_left 4 (Nat.pow_le_pow_left (by decide) _)
    _ = 4 * 1 * 10 ^ BinaryFormat.single.depth := by rw [Nat.mul_one]
    _ ≤ 4 * (m * 2 ^ e) * 10 ^ BinaryFormat.single.depth := by gcongr
    _ = _ := by rw [Nat.mul_assoc 4 m]

theorem le_halfScale (e : Nat) : (10 : ℚ) ^ (-46 : Int) ≤ halfScale e := by
  have hone : (1 : ℚ) ≤ 2 ^ e := one_le_pow₀ (by norm_num)
  rw [halfScale, le_div_iff₀ (by positivity)]
  refine le_trans ?_ hone
  norm_num

theorem halfScale_le {e : Nat} (he : e < 254) : halfScale e ≤ 2 ^ 103 := by
  rw [halfScale, div_le_iff₀ (by positivity), ← pow_add]
  exact pow_le_pow_right₀ (by norm_num) (by omega)

theorem Inner.exists_shortest {x : Binary .single} (h : Inner x.magnitude m e) :
    ∃ c k, x.shortest = ⟨x.negative, c, k⟩ ∧ NearestDecimal x.magnitude c k := by
  obtain ⟨hcenter, hlower, hupper⟩ := h.ends
  have hs := halfScale_pos e
  have hm : (1 : ℚ) ≤ m := by exact_mod_cast h.pos
  have hm' := h.le_two_pow
  have hhalf : 2 * m * halfScale e - (2 * m - 1) * halfScale e = halfScale e := by ring
  have hgrids : 2 * (m : ℚ) ≤ 10 ^ (BinaryFormat.single.fractionBits + 1) :=
    calc 2 * (m : ℚ) ≤ 10 ^ 24 := by linarith
      _ = _ := rfl
  obtain ⟨c, i, k, hshortest, hholds, hnear, hcoarse⟩ :=
    Binary.shortest_spec h.magnitude_ne_zero h.centered h.denominator_le (by
      rw [hcenter, hlower, hhalf]
      exact mul_le_mul_of_nonneg_right hgrids hs.le)
  rw [hcenter, hlower, hhalf, zpow_add_one₀ (by norm_num)] at hcoarse
  have hstep : (10 : ℚ) ^ k ≤ 10 ^ (k + (i : Int)) :=
    zpow_le_zpow_right₀ (by norm_num) (by omega)
  obtain ⟨hlow, hhigh⟩ := hholds.le
  rw [hlower] at hlow
  rw [hupper] at hhigh
  have hc : 0 < c := by
    refine Nat.pos_of_ne_zero fun h0 => ?_
    rw [h0, Nat.cast_zero, zero_mul] at hlow
    nlinarith
  have hone : (1 : ℚ) ≤ c := by exact_mod_cast hc
  generalize k + (i : Int) = l at *
  have hten : (0 : ℚ) < 10 ^ l := zpow_pos (by norm_num) l
  refine ⟨c, l, hshortest, ⟨hc, ?_, ?_, ?_, hholds⟩, hnear.trans hstep⟩
  · have hlt : (c : ℚ) * 10 ^ l < 2 ^ 29 * 10 ^ l :=
      calc (c : ℚ) * 10 ^ l ≤ (2 * m + 1) * halfScale e := hhigh
        _ ≤ 2 ^ 25 * halfScale e := by gcongr; linarith
        _ ≤ 2 ^ 25 * (10 ^ l * 10) := by gcongr; linarith
        _ < 2 ^ 29 * 10 ^ l := by linarith
    exact_mod_cast lt_of_mul_lt_mul_right hlt hten.le
  · by_contra hnot
    have hsmall : (10 : ℚ) ^ l * 10 ≤ 10 ^ (-46 : Int) := by
      rw [← zpow_add_one₀ (by norm_num)]
      exact zpow_le_zpow_right₀ (by norm_num) (by omega)
    linarith [le_halfScale e]
  · by_contra hnot
    have hgreat : (10 : ℚ) ^ (39 : Int) ≤ 10 ^ l := zpow_le_zpow_right₀ (by norm_num) (by omega)
    have hle : (2 * (m : ℚ) + 1) * halfScale e ≤ 2 ^ 25 * 2 ^ 103 := by
      have := halfScale_le h.scale_lt
      gcongr
      linarith
    have hlt : (2 : ℚ) ^ 25 * 2 ^ 103 < 10 ^ (39 : Int) := by norm_num
    nlinarith

/-! ## Reading -/

/-- A decimal that is a multiple of half a scale has a small exponent, since the digits or the
multiple must hold all the factors five. -/
theorem natAbs_le_of_eq {c n e : Nat} {k : Int} (hc : 0 < c) (hlt : c < 2 ^ 53) (hn : 0 < n)
    (hlt' : n < 2 ^ 53) (h : (c : ℚ) * 10 ^ k = n * halfScale e) : k.natAbs ≤ 22 := by
  have hfive (i : Nat) (d : Nat) (hd : 0 < d) (hlt : d < 2 ^ 53) (j : Nat)
      (hdvd : 5 ^ i ∣ d * 2 ^ j) : i ≤ 22 := by
    have hcoprime : Nat.Coprime (5 ^ i) (2 ^ j) := Nat.Coprime.pow i j (by decide)
    have hle := Nat.le_of_dvd hd (hcoprime.dvd_of_dvd_mul_right hdvd)
    by_contra hnot
    have := Nat.pow_le_pow_right (show 0 < 5 by decide) (show 23 ≤ i by omega)
    omega
  rw [halfScale, ← mul_div_assoc, eq_div_iff (by positivity)] at h
  obtain ⟨i, rfl | rfl⟩ := k.eq_nat_or_neg
  · rw [zpow_natCast] at h
    have h : c * 10 ^ i * 2 ^ 150 = n * 2 ^ e := by exact_mod_cast h
    refine (Int.natAbs_natCast i).trans_le (hfive i n hn hlt' e ⟨c * 2 ^ i * 2 ^ 150, ?_⟩)
    rw [← h, show 10 = 5 * 2 by rfl, Nat.mul_pow]
    ring
  · rw [zpow_neg, zpow_natCast, mul_right_comm, mul_inv_eq_iff_eq_mul₀ (by positivity)] at h
    have h : c * 2 ^ 150 = n * 2 ^ e * 10 ^ i := by exact_mod_cast h
    rw [Int.natAbs_neg]
    refine (Int.natAbs_natCast i).trans_le (hfive i c hc hlt 150 ⟨n * 2 ^ e * 2 ^ i, ?_⟩)
    rw [h, show 10 = 5 * 2 by rfl, Nat.mul_pow]
    ring

theorem Inner.le_infinity (h : Inner magnitude m e) :
    magnitude ≤ BinaryFormat.single.infinity := by
  have hsum := Binary.scale_add_significand .single magnitude
  rw [h.significand] at hsum
  have hm := h.lt
  have he := h.scale_lt
  have hbits : BinaryFormat.single.fractionBits = 23 := rfl
  have hinfinity : BinaryFormat.single.infinity = 255 * 2 ^ 23 := rfl
  rw [hbits] at hsum
  omega

/-- A double in the interval of a single is rounded to it. -/
theorem convert_of_holds {y : Binary .double} (hfinite : y.isInfinite = false)
    (hle : magnitude ≤ BinaryFormat.single.infinity)
    (h : (Rounding.ofMagnitude .single magnitude).Holds y.value) :
    (y.convert .single).magnitude = magnitude := by
  rw [Binary.convert, hfinite, if_neg Bool.false_ne_true, Nat.one_shiftLeft]
  refine Binary.roundMagnitude_of_holds hle (Nat.two_pow_pos _) ?_
  rw [Binary.value] at h
  exact_mod_cast h

/-- A shortest decimal that comes close to a midpoint next to its single is that midpoint, but for
one exception. -/
theorem Inner.eq_or_exception {c n : Nat} {k : Int} (h : Inner magnitude m e)
    (hdecimal : NearestDecimal magnitude c k) (hn : n + 1 = 2 * m ∨ n = 2 * m + 1)
    (hnear : |(c : ℚ) * 10 ^ k - n * halfScale e| ≤ c * 10 ^ k / 2 ^ 51) :
    (c : ℚ) * 10 ^ k = n * halfScale e ∨ c = 7038531 ∧ k = -32 := by
  obtain ⟨hcenter, hlower, hupper⟩ := h.ends
  have hs := halfScale_pos e
  have hm := h.lt
  have hlarge : (c : ℚ) * 10 ^ k ≤ 2 ^ 25 * halfScale e := by
    have := hdecimal.holds.le.2
    rw [hupper] at this
    refine this.trans (mul_le_mul_of_nonneg_right ?_ hs.le)
    linarith [h.le_two_pow]
  have hapart : |2 * m * halfScale e - n * halfScale e| = halfScale e := by
    have hone : |2 * (m : ℚ) - n| = 1 := by
      rcases hn with hn | hn
      · have : (n : ℚ) + 1 = 2 * m := by exact_mod_cast hn
        rw [← this]
        simp
      · have : (n : ℚ) = 2 * m + 1 := by exact_mod_cast hn
        rw [this]
        simp
    rw [← sub_mul, abs_mul, hone, abs_of_pos hs, one_mul]
  refine NearTie.eq_of_near h.scale_lt hdecimal.pos (by omega) (by omega) ?_ hlarge hnear
  have hstep := hdecimal.near
  rw [hcenter] at hstep
  have htriangle := abs_sub_le (2 * m * halfScale e) (c * 10 ^ k) (n * halfScale e)
  rw [hapart, abs_sub_comm] at htriangle
  linarith

/-- The exception is read as the single that is nearest to it. -/
theorem convert_exception :
    (scale 4 (Binary.ofNat 7038531) (-32)).map (fun y => (y.convert .single).magnitude) =
      some (Binary.roundMagnitude .single 7038531 (10 ^ 32)) := by
  decide +kernel

/-- A decimal that comes close to a midpoint is read as the single. -/
theorem Inner.magnitude_of_near {c n : Nat} {k : Int} {y : Binary .double}
    (h : Inner magnitude m e) (hdecimal : NearestDecimal magnitude c k) (hy : Binary.Reads c k y)
    (hn : n + 1 = 2 * m ∨ n = 2 * m + 1)
    (hnear : |(c : ℚ) * 10 ^ k - n * halfScale e| ≤ c * 10 ^ k / 2 ^ 51) :
    (y.convert .single).magnitude = magnitude := by
  have hm := h.lt
  have hpos := h.pos
  have he := h.scale_lt
  have hc := hdecimal.lt
  rcases h.eq_or_exception hdecimal hn hnear with hexact | ⟨rfl, rfl⟩
  · have hsmall := natAbs_le_of_eq hdecimal.pos (by omega) (by omega) (by omega) hexact
    have hvalue : y.value = c * 10 ^ k := by
      refine hy.exact_of_eq hsmall n (e + 924) (by omega) (by omega) ?_
      rw [hexact, halfScale, pow_add, show BinaryFormat.double.depth = 150 + 924 from rfl, pow_add]
      field_simp
    refine convert_of_holds hy.finite h.le_infinity ?_
    rw [hvalue]
    exact hdecimal.holds
  · have hread := convert_exception
    rw [hy.read] at hread
    refine (Option.some.inj hread).trans ?_
    refine Binary.roundMagnitude_of_holds h.le_infinity (by decide) ?_
    have hcast : (7038531 : ℕ) * (10 : ℚ) ^ (-32 : Int) =
        (7038531 : ℕ) / ((10 ^ 32 : ℕ) : ℚ) := by
      norm_num
    rw [← hcast]
    exact hdecimal.holds

/-- Reading a shortest decimal gives the single. -/
theorem Inner.magnitude_of_reads {c : Nat} {k : Int} {y : Binary .double}
    (h : Inner magnitude m e) (hdecimal : NearestDecimal magnitude c k) (hy : Binary.Reads c k y) :
    (y.convert .single).magnitude = magnitude := by
  obtain ⟨-, hlower, hupper⟩ := h.ends
  obtain ⟨hlow, hhigh⟩ := hdecimal.holds.le
  obtain ⟨hbelow, habove⟩ := abs_le.1 hy.error
  have hpos := h.pos
  -- The double lies between the midpoints, or beyond one that the decimal must then be close to.
  by_cases hdown : (Rounding.ofMagnitude .single magnitude).lower < y.value
  · by_cases hup : y.value < (Rounding.ofMagnitude .single magnitude).upper
    · exact convert_of_holds hy.finite h.le_infinity (Rounding.holds_of_lt hdown hup)
    · rw [hupper] at hhigh hup
      refine h.magnitude_of_near hdecimal hy (n := 2 * m + 1) (.inr rfl) ?_
      push_cast
      rw [abs_sub_comm, abs_of_nonneg (sub_nonneg.2 hhigh)]
      linarith
  · rw [hlower] at hlow hdown
    refine h.magnitude_of_near hdecimal hy (n := 2 * m - 1) (.inl (by omega)) ?_
    have hcast : ((2 * m - 1 : ℕ) : ℚ) = 2 * m - 1 := by
      rw [Nat.cast_sub (by omega)]
      push_cast
      rfl
    rw [hcast, abs_of_nonneg (sub_nonneg.2 hlow)]
    linarith

/-! ## Documents -/

theorem convert_signed {x : Binary .single} {y : Binary .double} (hy : y.negative = false)
    (hmagnitude : (y.convert .single).magnitude = x.magnitude) :
    (Json.signed x.negative y).convert .single = x := by
  have hsign := (Binary.convert_negative .single y).trans hy
  cases hx : x.negative with
  | false => exact Binary.ext (hsign.trans hx.symm) hmagnitude
  | true =>
    rw [Json.signed, if_pos rfl, Binary.neg_convert]
    exact Binary.ext (by rw [Binary.neg, hsign, hx]; rfl) hmagnitude

/-- A single whose digits are scaled to a double that is rounded to it is read back. -/
theorem single_of_reads {x : Binary .single} {c : Nat} {k : Int} {y : Binary .double}
    (hpower : (Numeral.ofBinary x).HasPower k)
    (hdigits : (Numeral.ofBinary x).digits.foldl Json.addDigit 0 = c)
    (hnegative : x.shortest.negative = x.negative) (hc : c < 2 ^ 53) (hy : Binary.Reads c k y)
    (hmagnitude : (y.convert .single).magnitude = x.magnitude) :
    Doc.single (.num (Numeral.ofBinary x)) = .ok x := by
  have hfit : (Numeral.ofBinary x).digits.foldl Json.addDigit 0 ≤ Json.maxSignificand := by
    rw [hdigits, Json.maxSignificand, Nat.one_shiftLeft]
    omega
  have hreal := hpower.real?_eq hfit
  rw [hdigits, hy.read] at hreal
  have hvalue : (Numeral.ofBinary x).value? = some (.real (Json.signed x.negative y)) := by
    rw [Numeral.ofBinary] at hreal ⊢
    rw [Json.value?_ofDecimal, hreal, Json.ofDecimal_negative, hnegative]
    rfl
  rw [Doc.single, Doc.binary, hvalue]
  exact congrArg Except.ok (convert_signed hy.sign hmagnitude)

/-- The digits of a single are scaled as they are, or zeros are put behind them. -/
theorem ofBinary_hasPower {x : Binary .single} {c : Nat} {k : Int}
    (hshortest : x.shortest = ⟨x.negative, c, k⟩) (hdecimal : DecimalOf x.magnitude c k) :
    ((Numeral.ofBinary x).HasPower k ∧
        (Numeral.ofBinary x).digits.foldl Json.addDigit 0 = c) ∨
      (0 ≤ k ∧ c * 10 ^ (k.toNat + 1) < 10 ^ 14 ∧ (Numeral.ofBinary x).HasPower (-1) ∧
        (Numeral.ofBinary x).digits.foldl Json.addDigit 0 = c * 10 ^ (k.toNat + 1)) := by
  have hc := hdecimal.lt
  have hlow := hdecimal.low
  have hhigh := hdecimal.high
  have hlength : (Nat.toDigits 10 c).length ≤ 9 :=
    (Nat.length_toDigits_le_iff (by decide) (by decide)).2 (by omega)
  have hexponent : ((Nat.toDigits 10 c).length + k - 1).natAbs ≤ Json.maxExponent := by
    rw [Json.maxExponent, Nat.one_shiftLeft]
    omega
  rw [Numeral.ofBinary, hshortest]
  rcases Json.ofDecimal_hasPower (Numeral.layout .single) (d := ⟨x.negative, c, k⟩)
    (Nat.ne_of_gt hdecimal.pos) hexponent with hplain | ⟨hk, hwhole, hpower, hdigits⟩
  · exact .inl hplain
  · refine .inr ⟨hk, ?_, hpower, hdigits⟩
    have hwhole : (Nat.toDigits 10 c).length + k ≤ (13 : Int) := hwhole
    have hlt : c < 10 ^ (Nat.toDigits 10 c).length :=
      (Nat.length_toDigits_le_iff (by decide) Nat.length_toDigits_pos).1 (Nat.le_refl _)
    calc c * 10 ^ (k.toNat + 1)
        < 10 ^ (Nat.toDigits 10 c).length * 10 ^ (k.toNat + 1) :=
          Nat.mul_lt_mul_of_pos_right hlt (Nat.pow_pos (by decide))
      _ = 10 ^ ((Nat.toDigits 10 c).length + (k.toNat + 1)) := (Nat.pow_add _ _ _).symm
      _ ≤ 10 ^ 14 := Nat.pow_le_pow_right (by decide) (by omega)

/-- A single is read back if its decimal, scaled as it is, gives its magnitude. -/
theorem single_of_decimal {x : Binary .single} {c : Nat} {k : Int}
    (hshortest : x.shortest = ⟨x.negative, c, k⟩) (hdecimal : DecimalOf x.magnitude c k)
    (hreads : ∀ y, Binary.Reads c k y → (y.convert .single).magnitude = x.magnitude) :
    Doc.single (.num (Numeral.ofBinary x)) = .ok x := by
  have hpos := hdecimal.pos
  have hc := hdecimal.lt
  have hlow := hdecimal.low
  have hhigh := hdecimal.high
  have hnegative : x.shortest.negative = x.negative := by rw [hshortest]
  rcases ofBinary_hasPower hshortest hdecimal with
    ⟨hpower, hdigits⟩ | ⟨hk, hsmall, hpower, hdigits⟩
  · obtain ⟨y, hy⟩ := Binary.exists_reads hpos (show c < 2 ^ 53 by omega)
      (show k.natAbs ≤ 60 by omega)
    exact single_of_reads hpower hdigits hnegative (by omega) hy (hreads y hy)
  · -- With zeros behind its digits the decimal is a whole number, which is read exactly.
    obtain ⟨i, rfl⟩ := Int.eq_ofNat_of_zero_le hk
    rw [Int.toNat_natCast] at hsmall hdigits
    obtain ⟨y, hy⟩ := Binary.exists_reads (c := c * 10 ^ (i + 1)) (k := -1) (by positivity)
      (by omega) (by decide)
    have hvalue : ((c * 10 ^ (i + 1) : ℕ) : ℚ) * 10 ^ (-1 : Int) = c * 10 ^ (i : Int) := by
      rw [zpow_neg_one, zpow_natCast]
      push_cast
      rw [pow_succ]
      field_simp
    have hexact : y.value = c * 10 ^ (i : Int) := by
      rw [← hvalue]
      refine hy.exact_of_eq (by decide) (c * 10 ^ i) 1074 ?_ (by decide) ?_
      · rw [pow_succ, ← Nat.mul_assoc] at hsmall
        omega
      · rw [hvalue, zpow_natCast, show BinaryFormat.double.depth = 1074 from rfl,
          mul_div_assoc, div_self (by positivity), mul_one]
        push_cast
        rfl
    refine single_of_reads hpower hdigits hnegative (by omega) hy ?_
    refine convert_of_holds hy.finite x.magnitude_le ?_
    rw [hexact]
    exact hdecimal.holds

theorem Inner.single_ofBinary {x : Binary .single} (h : Inner x.magnitude m e) :
    Doc.single (.num (Numeral.ofBinary x)) = .ok x := by
  obtain ⟨c, k, hshortest, hdecimal⟩ := h.exists_shortest
  exact single_of_decimal hshortest hdecimal.toDecimalOf
    fun y hy => h.magnitude_of_reads hdecimal hy

/-! ## Powers of two -/

/-- What is computed for a power of two: its decimal is so far from both ends of the interval that
an error does not matter. -/
structure Clear (r : Rounding) (d : Decimal) : Prop where
  pos : 0 < d.digits
  lt : d.digits < 2 ^ 29
  low : -46 ≤ d.exponent
  high : d.exponent ≤ 38
  above : 2 ^ 51 * (r.low * tenTo (-d.exponent).toNat) +
      d.digits * tenTo d.exponent.toNat * r.denominator <
    2 ^ 51 * (d.digits * tenTo d.exponent.toNat * r.denominator)
  below : (2 ^ 51 + 1) * (d.digits * tenTo d.exponent.toNat * r.denominator) <
    2 ^ 51 * (r.high * tenTo (-d.exponent).toNat)

instance (r : Rounding) (d : Decimal) : Decidable (Clear r d) :=
  decidable_of_iff (0 < d.digits ∧ d.digits < 2 ^ 29 ∧ -46 ≤ d.exponent ∧ d.exponent ≤ 38 ∧
      2 ^ 51 * (r.low * tenTo (-d.exponent).toNat) +
          d.digits * tenTo d.exponent.toNat * r.denominator <
        2 ^ 51 * (d.digits * tenTo d.exponent.toNat * r.denominator) ∧
      (2 ^ 51 + 1) * (d.digits * tenTo d.exponent.toNat * r.denominator) <
        2 ^ 51 * (r.high * tenTo (-d.exponent).toNat))
    ⟨fun ⟨h₁, h₂, h₃, h₄, h₅, h₆⟩ => ⟨h₁, h₂, h₃, h₄, h₅, h₆⟩,
      fun ⟨h₁, h₂, h₃, h₄, h₅, h₆⟩ => ⟨h₁, h₂, h₃, h₄, h₅, h₆⟩⟩

/-- The single whose fraction is zero at one of the scales. -/
def twoPow (e : Fin 254) : Binary .single where
  negative := false
  magnitude := e * 2 ^ 23 + 2 ^ 23
  magnitude_le := by
    have hinfinity : BinaryFormat.single.infinity = 255 * 2 ^ 23 := rfl
    omega

theorem clear_twoPow : ∀ e : Fin 254,
    Clear (Rounding.ofMagnitude .single (twoPow e).magnitude) (twoPow e).shortest := by
  decide +kernel

theorem Clear.between {r : Rounding} {d : Decimal} (h : Clear r d) (hr : 0 < r.denominator) :
    r.lower < d.digits * 10 ^ d.exponent - d.digits * 10 ^ d.exponent / 2 ^ 51 ∧
      d.digits * 10 ^ d.exponent + d.digits * 10 ^ d.exponent / 2 ^ 51 < r.upper := by
  have hr : (0 : ℚ) < r.denominator := by exact_mod_cast hr
  have hten : (0 : ℚ) < tenTo (-d.exponent).toNat := by exact_mod_cast tenTo_pos _
  have habove : (2 : ℚ) ^ 51 * (r.low * tenTo (-d.exponent).toNat) +
      d.digits * tenTo d.exponent.toNat * r.denominator <
      2 ^ 51 * (d.digits * tenTo d.exponent.toNat * r.denominator) := by exact_mod_cast h.above
  have hbelow : ((2 : ℚ) ^ 51 + 1) * (d.digits * tenTo d.exponent.toNat * r.denominator) <
      2 ^ 51 * (r.high * tenTo (-d.exponent).toNat) := by exact_mod_cast h.below
  rw [Rounding.lower, Rounding.upper, zpow_eq_tenTo_div]
  generalize (tenTo (-d.exponent).toNat : ℚ) = s at *
  obtain ⟨v, hv⟩ : ∃ v, v = d.digits * (tenTo d.exponent.toNat / s : ℚ) := ⟨_, rfl⟩
  have hpoint : (d.digits * tenTo d.exponent.toNat * r.denominator : ℚ) =
      v * r.denominator * s := by
    rw [hv]
    field_simp
  rw [hpoint] at habove hbelow
  rw [← hv, div_lt_iff₀ hr, lt_div_iff₀ hr]
  constructor
  · exact lt_of_mul_lt_mul_right (by linarith) hten.le
  · exact lt_of_mul_lt_mul_right (by linarith) hten.le

theorem Clear.decimalOf {d : Decimal} (h : Clear (Rounding.ofMagnitude .single magnitude) d) :
    DecimalOf magnitude d.digits d.exponent := by
  obtain ⟨hlow, hhigh⟩ := h.between (Rounding.denominator_pos _ _)
  have hnonneg : (0 : ℚ) ≤ d.digits * 10 ^ d.exponent / 2 ^ 51 := by positivity
  exact ⟨h.pos, h.lt, h.low, h.high, Rounding.holds_of_lt (by linarith) (by linarith)⟩

/-- A power of two is read as it is written. -/
theorem single_ofBinary_twoPow {x : Binary .single} {e : Nat} (he : e < 254)
    (hx : x.magnitude = e * 2 ^ 23 + 2 ^ 23) :
    Doc.single (.num (Numeral.ofBinary x)) = .ok x := by
  have htwo : twoPow ⟨e, he⟩ = { x with negative := false } := Binary.ext rfl hx.symm
  have hclear := clear_twoPow ⟨e, he⟩
  rw [htwo] at hclear
  refine single_of_decimal x.shortest_sign hclear.decimalOf fun y hy => ?_
  obtain ⟨hlow, hhigh⟩ := hclear.between (Rounding.denominator_pos _ _)
  obtain ⟨hbelow, habove⟩ := abs_le.1 hy.error
  exact convert_of_holds hy.finite x.magnitude_le
    (Rounding.holds_of_lt (by linarith) (by linarith))

/-! ## All singles -/

/-- Every finite single is read as it is written. -/
theorem single_ofBinary {x : Binary .single} (h : x.isInfinite = false) :
    Doc.single (.num (Numeral.ofBinary x)) = .ok x := by
  obtain ⟨m, e, hm⟩ : ∃ m e, Binary.significand .single x.magnitude = (m, e) := ⟨_, _, rfl⟩
  have hsum := Binary.scale_add_significand .single x.magnitude
  rw [hm, show BinaryFormat.single.fractionBits = 23 from rfl] at hsum
  have hleast : (Binary.significand .single x.magnitude).2 ≠ 0 →
      2 ^ 23 ≤ (Binary.significand .single x.magnitude).1 := Binary.le_significand
  rw [hm] at hleast
  dsimp only at hsum hleast
  have he : e < 254 := by
    have hinfinity : BinaryFormat.single.infinity = 255 * 2 ^ 23 := rfl
    have hle := x.magnitude_le
    have hne : x.magnitude ≠ BinaryFormat.single.infinity := by
      simpa [Binary.isInfinite] using h
    omega
  by_cases htwo : m = 2 ^ 23 ∧ e ≠ 0
  · exact single_ofBinary_twoPow he (by rw [← hsum, htwo.1])
  · by_cases hzero : m = 0
    · have he : e = 0 := by
        by_contra hne
        have := hleast hne
        omega
      have hx : x = ⟨x.negative, 0, Nat.zero_le _⟩ := Binary.ext rfl (by dsimp only; omega)
      rw [hx]
      exact eq_ok_of_toOption (by cases x.negative <;> decide +kernel)
    · refine Inner.single_ofBinary ⟨hm, Nat.pos_of_ne_zero hzero, fun htop => ?_, he⟩
      by_contra hne
      exact htwo ⟨htop, hne⟩

end Banknote
