import Banknote.Number.Shortest
import Mathlib.Algebra.Order.Field.Basic
import Mathlib.Data.Rat.Cast.Order
import Mathlib.Tactic.FieldSimp
import Mathlib.Tactic.Linarith
import Mathlib.Tactic.Ring

/-!
# How binary numbers are rounded

Three facts about `roundMagnitude`, for any format.

* Intervals.  `roundMagnitude_of_holds`: a quotient in the rounding interval of a magnitude is
  rounded to it.
* Errors.  `InRange.value_roundMagnitude`: a quotient that is neither very small nor very large is
  changed by at most half a unit of its last place.
* Exact quotients.  `value_roundMagnitude_exact`: a quotient that is a number of the format stays as
  it is.
-/

namespace Banknote

/-! ## Quotients -/

/-- A quotient within half a unit of a number is rounded to it, a tie if the number is even. -/
theorem roundDiv_eq {num den q : Nat} (hden : 0 < den) (hlow : 2 * (q * den) ≤ 2 * num + den)
    (hhigh : 2 * num ≤ 2 * (q * den) + den)
    (htie : 2 * (q * den) = 2 * num + den ∨ 2 * num = 2 * (q * den) + den → q % 2 = 0) :
    roundDiv num den = q := by
  have hdiv := Nat.div_add_mod num den
  have hmod := Nat.mod_lt num hden
  rw [roundDiv]
  generalize num / den = q₀ at hdiv ⊢
  generalize num % den = r at hdiv hmod ⊢
  have hcomm : den * q₀ = q₀ * den := Nat.mul_comm den q₀
  have hq : q = q₀ ∨ q = q₀ + 1 := by
    rcases Nat.lt_trichotomy q q₀ with h | h | h
    · have := Nat.mul_le_mul_right den h
      rw [Nat.succ_mul] at this
      omega
    · exact .inl h
    · by_cases h' : q = q₀ + 1
      · exact .inr h'
      · have := Nat.mul_le_mul_right den (show q₀ + 2 ≤ q by omega)
        rw [Nat.add_mul] at this
        omega
  rcases hq with rfl | rfl
  · split
    · rfl
    · have heven := htie (by omega)
      rw [if_neg (by omega), heven, Nat.add_zero]
  · rw [Nat.add_one_mul q₀] at hlow hhigh htie
    rw [if_neg (by omega)]
    split
    · rfl
    · have heven := htie (by omega)
      omega

/-- A quotient without remainder is not rounded. -/
theorem roundDiv_mul {q den : Nat} (hden : 0 < den) : roundDiv (q * den) den = q :=
  roundDiv_eq hden (by omega) (by omega) (by omega)

namespace Binary

variable {f : BinaryFormat}

/-! ## Significands -/

/-- A magnitude is its scale and its significand put together. -/
theorem scale_add_significand (f : BinaryFormat) (magnitude : Nat) :
    (significand f magnitude).2 * 2 ^ f.fractionBits + (significand f magnitude).1 =
      magnitude := by
  have hunit : 0 < 2 ^ f.fractionBits := Nat.two_pow_pos _
  have hdiv := Nat.div_add_mod magnitude (2 ^ f.fractionBits)
  simp only [significand, Nat.one_shiftLeft]
  split
  · simp
  · have hpos : 1 ≤ magnitude / 2 ^ f.fractionBits := Nat.div_pos (Nat.not_lt.1 ‹_›) hunit
    have hmul := Nat.mul_le_mul_left (2 ^ f.fractionBits) hpos
    rw [Nat.sub_mul, Nat.mul_comm (magnitude / _)]
    omega

theorem significand_lt (f : BinaryFormat) (magnitude : Nat) :
    (significand f magnitude).1 < 2 ^ (f.fractionBits + 1) := by
  have hmod := Nat.mod_lt magnitude (Nat.two_pow_pos f.fractionBits)
  simp only [significand, Nat.one_shiftLeft, Nat.pow_succ]
  split <;> omega

theorem le_significand {magnitude : Nat} (h : (significand f magnitude).2 ≠ 0) :
    2 ^ f.fractionBits ≤ (significand f magnitude).1 := by
  simp only [significand, Nat.one_shiftLeft] at h ⊢
  split at h
  · exact absurd rfl h
  · rename_i hge
    rw [if_neg hge]
    exact Nat.le_add_right _ _

/-- A scale and a significand that fits it are taken apart again. -/
theorem significand_add {m e : Nat} (hlt : m < 2 ^ (f.fractionBits + 1))
    (hle : e = 0 ∨ 2 ^ f.fractionBits ≤ m) :
    significand f (e * 2 ^ f.fractionBits + m) = (m, e) := by
  have hunit : 0 < 2 ^ f.fractionBits := Nat.two_pow_pos _
  simp only [significand, Nat.one_shiftLeft]
  rw [Nat.pow_succ] at hlt
  by_cases hsmall : m < 2 ^ f.fractionBits
  · obtain rfl := hle.resolve_right (by omega)
    simp [hsmall]
  · have hmod : (e * 2 ^ f.fractionBits + m) % 2 ^ f.fractionBits = m - 2 ^ f.fractionBits := by
      rw [Nat.mul_add_mod', Nat.mod_eq_sub_mod (by omega), Nat.mod_eq_of_lt (by omega)]
    have hdiv : (e * 2 ^ f.fractionBits + m) / 2 ^ f.fractionBits = e + 1 := by
      rw [Nat.mul_comm, Nat.mul_add_div hunit,
        Nat.div_eq_of_lt_le (show 1 * 2 ^ f.fractionBits ≤ m by omega) (by omega)]
    rw [if_neg (by omega), hmod, hdiv]
    exact Prod.ext (Nat.add_sub_cancel' (Nat.not_lt.1 hsmall)) rfl

theorem multiple_eq (x : Binary f) :
    x.multiple = (significand f x.magnitude).1 * 2 ^ (significand f x.magnitude).2 :=
  Nat.shiftLeft_eq _ _

/-- The absolute value of a scale and a significand, which may also be the next power of two. -/
theorem multiple_add {x : Binary f} {m e : Nat} (hx : x.magnitude = e * 2 ^ f.fractionBits + m)
    (hlt : m ≤ 2 ^ (f.fractionBits + 1)) (hle : e = 0 ∨ 2 ^ f.fractionBits ≤ m) :
    x.multiple = m * 2 ^ e := by
  rw [multiple_eq, hx]
  rcases Nat.lt_or_eq_of_le hlt with hlt | rfl
  · rw [significand_add hlt hle]
  · have hnext : e * 2 ^ f.fractionBits + 2 ^ (f.fractionBits + 1) =
        (e + 1) * 2 ^ f.fractionBits + 2 ^ f.fractionBits := by
      ring
    rw [hnext, significand_add (Nat.pow_lt_pow_right (by decide) (by omega)) (.inr (le_refl _))]
    ring

/-! ## Scales -/

/-- The scale at which a quotient is rounded: there its significand fits, and fills all bits unless
the scale is the least one. -/
structure ScaleOf (f : BinaryFormat) (num den e : Nat) : Prop where
  den_pos : 0 < den
  lt : num * 2 ^ f.depth < 2 ^ (f.fractionBits + 1) * (den * 2 ^ e)
  le : e = 0 ∨ 2 ^ f.fractionBits * (den * 2 ^ e) ≤ num * 2 ^ f.depth

theorem scaleOf_log2 {num den : Nat} (hden : 0 < den) :
    ScaleOf f num den ((num * 2 ^ f.depth / den).log2 - f.fractionBits) := by
  set n := num * 2 ^ f.depth / den with hn
  refine ⟨hden, ?_, ?_⟩
  · have hlt : n < 2 ^ (f.fractionBits + 1 + (n.log2 - f.fractionBits)) :=
      Nat.lt_log2_self.trans_le (Nat.pow_le_pow_right (by decide) (by omega))
    rw [hn, Nat.div_lt_iff_lt_mul hden, ← hn, Nat.pow_add] at hlt
    calc num * 2 ^ f.depth < _ := hlt
      _ = _ := by ring
  · refine or_iff_not_imp_left.2 fun he => ?_
    have hle : 2 ^ (f.fractionBits + (n.log2 - f.fractionBits)) ≤ n := by
      rw [Nat.add_sub_cancel' (by omega)]
      refine Nat.log2_self_le fun h0 => he ?_
      rw [h0]
      simp
    rw [hn, Nat.le_div_iff_mul_le hden, ← hn, Nat.pow_add] at hle
    calc _ = _ := by ring
      _ ≤ num * 2 ^ f.depth := hle

/-- There is only one such scale. -/
theorem ScaleOf.eq {num den e : Nat} (h : ScaleOf f num den e) :
    (num * 2 ^ f.depth / den).log2 - f.fractionBits = e := by
  have hlt : num * 2 ^ f.depth / den < 2 ^ (f.fractionBits + 1 + e) := by
    rw [Nat.div_lt_iff_lt_mul h.den_pos, Nat.pow_add]
    calc num * 2 ^ f.depth < _ := h.lt
      _ = _ := by ring
  have hbound : (num * 2 ^ f.depth / den).log2 < f.fractionBits + 1 + e := by
    by_cases h0 : num * 2 ^ f.depth / den = 0
    · rw [h0, Nat.log2_zero]
      omega
    · exact (Nat.log2_lt h0).2 hlt
  rcases h.le with rfl | hle
  · omega
  · have hle : 2 ^ (f.fractionBits + e) ≤ num * 2 ^ f.depth / den := by
      rw [Nat.le_div_iff_mul_le h.den_pos, Nat.pow_add]
      calc _ = _ := by ring
        _ ≤ num * 2 ^ f.depth := hle
    have := (Nat.le_log2 (Nat.ne_of_gt ((Nat.two_pow_pos _).trans_le hle))).2 hle
    omega

theorem ScaleOf.roundMagnitude_eq {num den e : Nat} (h : ScaleOf f num den e) :
    roundMagnitude f num den =
      min (e * 2 ^ f.fractionBits + roundDiv (num * 2 ^ f.depth) (den * 2 ^ e)) f.infinity := by
  simp only [roundMagnitude, Nat.shiftLeft_eq, h.eq]

variable {num den e : Nat}

theorem ScaleOf.unit_pos (h : ScaleOf f num den e) : 0 < den * 2 ^ e :=
  Nat.mul_pos h.den_pos (Nat.two_pow_pos e)

/-- The significand that is rounded to fits the scale, or is the next power of two. -/
theorem ScaleOf.roundDiv_le (h : ScaleOf f num den e) :
    roundDiv (num * 2 ^ f.depth) (den * 2 ^ e) ≤ 2 ^ (f.fractionBits + 1) := by
  have hround := Banknote.roundDiv_le (num * 2 ^ f.depth) _ h.unit_pos
  have hlt := h.lt
  by_contra hnot
  have := Nat.mul_le_mul_left (den * 2 ^ e) (Nat.succ_le_of_lt (Nat.not_le.1 hnot))
  rw [Nat.mul_succ] at this
  rw [Nat.mul_assoc] at hround
  rw [Nat.mul_comm (2 ^ _) (den * 2 ^ e)] at hlt
  omega

theorem ScaleOf.le_roundDiv (h : ScaleOf f num den e) :
    e = 0 ∨ 2 ^ f.fractionBits ≤ roundDiv (num * 2 ^ f.depth) (den * 2 ^ e) := by
  refine h.le.imp_right fun hle => ?_
  have hround := roundDiv_ge (num * 2 ^ f.depth) _ h.unit_pos
  have hpos := h.unit_pos
  by_contra hnot
  have := Nat.mul_le_mul_left (den * 2 ^ e) (Nat.succ_le_of_lt (Nat.not_le.1 hnot))
  rw [Nat.mul_succ] at this
  rw [Nat.mul_assoc] at hround
  rw [Nat.mul_comm (2 ^ _) (den * 2 ^ e)] at hle
  omega

/-! ## Intervals -/

end Binary

namespace Rounding

/-- The value that is rounded to. -/
def center (r : Rounding) : ℚ := r.value / r.denominator

/-- The lower end of the interval. -/
def lower (r : Rounding) : ℚ := r.low / r.denominator

/-- The upper end of the interval. -/
def upper (r : Rounding) : ℚ := r.high / r.denominator

/-- A number lies in the interval. -/
def Holds (r : Rounding) (v : ℚ) : Prop :=
  if r.closed then r.lower ≤ v ∧ v ≤ r.upper else r.lower < v ∧ v < r.upper

/-- Between the ends every number lies in the interval. -/
theorem holds_of_lt {r : Rounding} {v : ℚ} (hlow : r.lower < v) (hhigh : v < r.upper) :
    r.Holds v := by
  rw [Holds]
  split
  · exact ⟨hlow.le, hhigh.le⟩
  · exact ⟨hlow, hhigh⟩

theorem Holds.le {r : Rounding} {v : ℚ} (h : r.Holds v) : r.lower ≤ v ∧ v ≤ r.upper := by
  rw [Holds] at h
  split at h
  · exact h
  · exact ⟨h.1.le, h.2.le⟩

theorem holds_div_iff {r : Rounding} {num den : Nat} (hr : 0 < r.denominator) (hden : 0 < den) :
    r.Holds (num / den) ↔
      if r.closed then r.low * den ≤ num * r.denominator ∧ num * r.denominator ≤ r.high * den
      else r.low * den < num * r.denominator ∧ num * r.denominator < r.high * den := by
  have hr : (0 : ℚ) < r.denominator := by exact_mod_cast hr
  have hden : (0 : ℚ) < den := by exact_mod_cast hden
  rw [Holds, lower, upper, div_le_div_iff₀ hr hden, div_le_div_iff₀ hden hr,
    div_lt_div_iff₀ hr hden, div_lt_div_iff₀ hden hr]
  exact_mod_cast Iff.rfl

theorem denominator_pos (f : BinaryFormat) (magnitude : Nat) :
    0 < (ofMagnitude f magnitude).denominator := by
  simp only [ofMagnitude, Nat.shiftLeft_eq]
  positivity

end Rounding

namespace Binary

/-- What the rounding interval of a magnitude says at its own scale. -/
theorem bounds_of_holds {f : BinaryFormat} {magnitude num den m e : Nat} (hden : 0 < den)
    (hm : significand f magnitude = (m, e))
    (h : (Rounding.ofMagnitude f magnitude).Holds (num / den)) :
    2 * (m * (den * 2 ^ e)) ≤ 2 * (num * 2 ^ f.depth) + den * 2 ^ e ∧
      2 * (num * 2 ^ f.depth) ≤ 2 * (m * (den * 2 ^ e)) + den * 2 ^ e ∧
      (2 * (m * (den * 2 ^ e)) = 2 * (num * 2 ^ f.depth) + den * 2 ^ e ∨
        2 * (num * 2 ^ f.depth) = 2 * (m * (den * 2 ^ e)) + den * 2 ^ e → m % 2 = 0) ∧
      (m = 2 ^ f.fractionBits → e ≠ 0 →
        4 * (m * (den * 2 ^ e)) ≤ 4 * (num * 2 ^ f.depth) + den * 2 ^ e) := by
  have hpoint : num * (4 * 2 ^ f.depth) = 4 * (num * 2 ^ f.depth) := by ring
  have hend (c : Nat) : c * 2 ^ e * den = c * (den * 2 ^ e) := by ring
  rw [Rounding.holds_div_iff (Rounding.denominator_pos f magnitude) hden] at h
  simp only [Rounding.ofMagnitude, hm, Nat.shiftLeft_eq, Nat.one_mul, beq_iff_eq,
    Bool.and_eq_true, decide_eq_true_eq, hpoint, hend, Nat.sub_mul, Nat.add_mul, Nat.mul_assoc 4,
    apply_ite (· * (den * 2 ^ e))] at h
  split at h
  all_goals split at h
  all_goals
    refine ⟨by omega, by omega, by omega, fun hleast he => ?_⟩
    omega

/-- A quotient in the rounding interval of a magnitude is rounded to it. -/
theorem roundMagnitude_of_holds {f : BinaryFormat} {magnitude num den : Nat}
    (hfinite : magnitude ≤ f.infinity) (hden : 0 < den)
    (h : (Rounding.ofMagnitude f magnitude).Holds (num / den)) :
    roundMagnitude f num den = magnitude := by
  obtain ⟨m, e, hm⟩ : ∃ m e, significand f magnitude = (m, e) := ⟨_, _, rfl⟩
  obtain ⟨hlow, hhigh, htie, hedge⟩ := bounds_of_holds hden hm h
  have hmagnitude := scale_add_significand f magnitude
  have hlt := significand_lt f magnitude
  have hle : (significand f magnitude).2 ≠ 0 → _ := le_significand
  rw [hm] at hmagnitude hlt hle
  dsimp only at hmagnitude hlt hle
  have hunit : 0 < den * 2 ^ e := Nat.mul_pos hden (Nat.two_pow_pos e)
  by_cases hscale : e = 0 ∨ 2 ^ f.fractionBits * (den * 2 ^ e) ≤ num * 2 ^ f.depth
  · have hfits : num * 2 ^ f.depth < 2 ^ (f.fractionBits + 1) * (den * 2 ^ e) := by
      have := Nat.mul_le_mul_right (den * 2 ^ e) (Nat.succ_le_of_lt hlt)
      rw [Nat.succ_mul] at this
      omega
    have hs : ScaleOf f num den e := ⟨hden, hfits, hscale⟩
    rw [hs.roundMagnitude_eq, roundDiv_eq hunit hlow hhigh htie, hmagnitude,
      Nat.min_eq_left hfinite]
  · -- Just below a power of two the quotient has the scale before.
    rw [not_or, Nat.not_le] at hscale
    obtain ⟨e, rfl⟩ : ∃ e', e = e' + 1 := ⟨e - 1, by omega⟩
    obtain rfl : m = 2 ^ f.fractionBits := by
      refine Nat.le_antisymm ?_ (hle hscale.1)
      by_contra hnot
      have := Nat.mul_le_mul_right (den * 2 ^ (e + 1)) (Nat.succ_le_of_lt (Nat.not_le.1 hnot))
      rw [Nat.succ_mul] at this
      omega
    have hhalf : den * 2 ^ (e + 1) = 2 * (den * 2 ^ e) := by ring
    have hdouble : 2 ^ (f.fractionBits + 1) * (den * 2 ^ e) =
        2 ^ f.fractionBits * (den * 2 ^ (e + 1)) := by ring
    have hleast : 2 ^ f.fractionBits * (den * 2 ^ (e + 1)) =
        2 * (2 ^ f.fractionBits * (den * 2 ^ e)) := by ring
    have hedge := hedge rfl hscale.1
    have hone : den * 2 ^ e ≤ 2 ^ f.fractionBits * (den * 2 ^ e) :=
      Nat.le_mul_of_pos_left _ (Nat.two_pow_pos _)
    have hs : ScaleOf f num den e := ⟨hden, by omega, .inr (by omega)⟩
    have hround : roundDiv (num * 2 ^ f.depth) (den * 2 ^ e) = 2 ^ (f.fractionBits + 1) :=
      roundDiv_eq (Nat.mul_pos hden (Nat.two_pow_pos e)) (by omega) (by omega)
        fun _ => by rw [Nat.pow_succ, Nat.mul_mod_left]
    rw [hs.roundMagnitude_eq, hround, ← Nat.min_eq_left hfinite, ← hmagnitude]
    congr 1
    ring

/-! ## Errors -/

/-- The absolute value. -/
def value {f : BinaryFormat} (x : Binary f) : ℚ := x.multiple / 2 ^ f.depth

/-- A scale that is not among the last ones is rounded at without becoming infinite. -/
theorem ScaleOf.roundMagnitude_lt {f : BinaryFormat} {num den e : Nat} (h : ScaleOf f num den e)
    (he : e + 3 < 2 ^ f.exponentBits) :
    roundMagnitude f num den = e * 2 ^ f.fractionBits +
        roundDiv (num * 2 ^ f.depth) (den * 2 ^ e) ∧
      roundMagnitude f num den < f.infinity := by
  have hlt : e * 2 ^ f.fractionBits + roundDiv (num * 2 ^ f.depth) (den * 2 ^ e) < f.infinity := by
    have hmul := Nat.mul_le_mul_right (2 ^ f.fractionBits)
      (show e + 3 ≤ 2 ^ f.exponentBits - 1 by omega)
    rw [Nat.add_mul] at hmul
    have hround := h.roundDiv_le
    have hpos := Nat.two_pow_pos f.fractionBits
    rw [Nat.pow_succ] at hround
    rw [BinaryFormat.infinity, Nat.one_shiftLeft, Nat.shiftLeft_eq]
    omega
  rw [h.roundMagnitude_eq, Nat.min_eq_left hlt.le]
  exact ⟨rfl, hlt⟩

/-- A quotient that is neither very small nor very large. -/
structure InRange (f : BinaryFormat) (num den : Nat) : Prop where
  den_pos : 0 < den
  low : 2 ^ f.fractionBits * den ≤ num * 2 ^ f.depth
  high : num * 2 ^ f.depth < 2 ^ (f.fractionBits + (2 ^ f.exponentBits - 3)) * den

variable {f : BinaryFormat} {num den : Nat}

theorem InRange.exists_scaleOf (h : InRange f num den) (heb : 2 ≤ f.exponentBits) :
    ∃ e, ScaleOf f num den e ∧ e + 3 < 2 ^ f.exponentBits ∧
      2 ^ f.fractionBits * (den * 2 ^ e) ≤ num * 2 ^ f.depth := by
  obtain ⟨e, hs⟩ : ∃ e, ScaleOf f num den e := ⟨_, scaleOf_log2 h.den_pos⟩
  have hle : 2 ^ f.fractionBits * (den * 2 ^ e) ≤ num * 2 ^ f.depth := by
    rcases hs.le with rfl | hle
    · rw [Nat.pow_zero, Nat.mul_one]
      exact h.low
    · exact hle
  refine ⟨e, hs, ?_, hle⟩
  have hfour : 2 ^ 2 ≤ 2 ^ f.exponentBits := Nat.pow_le_pow_right (by decide) heb
  have hlt : 2 ^ (f.fractionBits + e) * den <
      2 ^ (f.fractionBits + (2 ^ f.exponentBits - 3)) * den :=
    calc 2 ^ (f.fractionBits + e) * den = 2 ^ f.fractionBits * (den * 2 ^ e) := by ring
      _ ≤ num * 2 ^ f.depth := hle
      _ < _ := h.high
  have := (Nat.pow_lt_pow_iff_right (by decide)).1 (Nat.lt_of_mul_lt_mul_right hlt)
  omega

/-- A quotient in range is changed by at most half a unit of its last place. -/
theorem InRange.value_roundMagnitude (h : InRange f num den) (heb : 2 ≤ f.exponentBits)
    (negative : Bool) :
    let x : Binary f := ofRatio negative num den
    x.isInfinite = false ∧ |x.value - num / den| ≤ num / den / 2 ^ (f.fractionBits + 1) := by
  obtain ⟨e, hs, hsmall, hle⟩ := h.exists_scaleOf heb
  obtain ⟨hround, hlt⟩ := hs.roundMagnitude_lt hsmall
  refine ⟨by simpa [isInfinite, ofRatio] using Nat.ne_of_lt hlt, ?_⟩
  rw [value, multiple_add hround hs.roundDiv_le hs.le_roundDiv]
  have hupper := Banknote.roundDiv_le (num * 2 ^ f.depth) _ hs.unit_pos
  have hlower := roundDiv_ge (num * 2 ^ f.depth) _ hs.unit_pos
  generalize roundDiv (num * 2 ^ f.depth) (den * 2 ^ e) = q at *
  have hden : (0 : ℚ) < den := by exact_mod_cast h.den_pos
  have hdepth : (0 : ℚ) < 2 ^ f.depth := by positivity
  have hbits : (0 : ℚ) < 2 ^ f.fractionBits := by positivity
  have hupper : 2 * ((den : ℚ) * 2 ^ e) * q ≤ 2 * (num * 2 ^ f.depth) + den * 2 ^ e := by
    exact_mod_cast hupper
  have hlower : 2 * ((num : ℚ) * 2 ^ f.depth) ≤ 2 * (den * 2 ^ e) * q + den * 2 ^ e := by
    exact_mod_cast hlower
  have hle : (2 : ℚ) ^ f.fractionBits * (den * 2 ^ e) ≤ num * 2 ^ f.depth := by
    exact_mod_cast hle
  have hvalue : ((q * 2 ^ e : ℕ) : ℚ) / 2 ^ f.depth - num / den =
      (q * (den * 2 ^ e) - num * 2 ^ f.depth) / (den * 2 ^ f.depth) := by
    push_cast
    field_simp
  have hbound : (num : ℚ) / den / 2 ^ (f.fractionBits + 1) =
      num * 2 ^ f.depth / 2 ^ (f.fractionBits + 1) / (den * 2 ^ f.depth) := by
    field_simp
  rw [hvalue, hbound, abs_div, abs_of_pos (mul_pos hden hdepth)]
  refine div_le_div_of_nonneg_right ?_ (mul_pos hden hdepth).le
  have hhalf : (den : ℚ) * 2 ^ e / 2 ≤ num * 2 ^ f.depth / 2 ^ (f.fractionBits + 1) := by
    rw [pow_succ, div_le_div_iff₀ (by norm_num) (by positivity)]
    linarith
  refine le_trans (abs_le.2 ⟨?_, ?_⟩) hhalf
  · linarith
  · linarith

/-- A quotient that is a number of the format is not changed. -/
theorem value_roundMagnitude_exact (negative : Bool) {n j : Nat} (hden : 0 < den)
    (hn : n < 2 ^ (f.fractionBits + 1)) (hj : j + 3 < 2 ^ f.exponentBits)
    (h : (num / den : ℚ) = n * 2 ^ j / 2 ^ f.depth) :
    (ofRatio negative num den : Binary f).value = num / den := by
  have h : num * 2 ^ f.depth = n * 2 ^ j * den := by
    rw [div_eq_div_iff (by exact_mod_cast Nat.ne_of_gt hden) (by positivity)] at h
    exact_mod_cast h
  obtain ⟨e, hs⟩ : ∃ e, ScaleOf f num den e := ⟨_, scaleOf_log2 hden⟩
  have hej : e ≤ j := by
    rcases hs.le with rfl | hle
    · exact Nat.zero_le j
    · have hlt : 2 ^ (f.fractionBits + e) * den < 2 ^ (f.fractionBits + 1 + j) * den :=
        calc 2 ^ (f.fractionBits + e) * den = 2 ^ f.fractionBits * (den * 2 ^ e) := by ring
          _ ≤ num * 2 ^ f.depth := hle
          _ = n * (2 ^ j * den) := by rw [h, Nat.mul_assoc]
          _ < 2 ^ (f.fractionBits + 1) * (2 ^ j * den) :=
            Nat.mul_lt_mul_of_pos_right hn (Nat.mul_pos (Nat.two_pow_pos j) hden)
          _ = _ := by ring
      have := (Nat.pow_lt_pow_iff_right (by decide)).1 (Nat.lt_of_mul_lt_mul_right hlt)
      omega
  obtain ⟨i, rfl⟩ := Nat.exists_eq_add_of_le hej
  have hexact : num * 2 ^ f.depth = n * 2 ^ i * (den * 2 ^ e) := by
    rw [h]
    ring
  have hround : roundDiv (num * 2 ^ f.depth) (den * 2 ^ e) = n * 2 ^ i := by
    rw [hexact, roundDiv_mul hs.unit_pos]
  have hq := hs.roundDiv_le
  have hq' := hs.le_roundDiv
  obtain ⟨hmagnitude, _⟩ := hs.roundMagnitude_lt (by omega)
  rw [hround] at hq hq' hmagnitude
  rw [value, multiple_add hmagnitude hq hq', div_eq_div_iff (by positivity)
    (by exact_mod_cast Nat.ne_of_gt hden)]
  have hcast : (num : ℚ) * 2 ^ f.depth = n * 2 ^ (e + i) * den := by exact_mod_cast h
  rw [hcast]
  push_cast
  ring

end Binary

end Banknote
