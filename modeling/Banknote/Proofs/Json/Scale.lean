import Banknote.Json.Numeral
import Banknote.Proofs.Number.Shortest

/-!
# How a decimal is read as a double

A decimal is read in two steps: a power of ten is rounded, and so is the product or the quotient.

* Steps.  `mul_near` and `div_near` bound the error of one step, `powerOfTen_near` that of the power
  of ten.
* Decimals.  `exists_reads`: a decimal of moderate size is read, with an error of at most a few
  units of the last place, and with none if all numbers on the way are doubles (`Reads`).
-/

namespace Banknote.Binary

open Json (powerOfTen scale)

/-! ## Steps -/

/-- A double is finite and close to a number. -/
structure Near (x : Binary .double) (v : ℚ) : Prop where
  finite : x.isInfinite = false
  error : |x.value - v| ≤ v / 2 ^ 53

variable {num den : Nat} {x y : Binary .double}

/-- A number of moderate size. -/
def Moderate (v : ℚ) : Prop := 1 / 10 ^ 300 ≤ v ∧ v ≤ 10 ^ 300

theorem Moderate.inRange (h : Moderate (num / den)) (hden : 0 < den) :
    InRange .double num den := by
  have hdenq : (0 : ℚ) < den := by exact_mod_cast hden
  have hlow : den ≤ num * 10 ^ 300 := by
    have := h.1
    rw [div_le_div_iff₀ (by positivity) hdenq, one_mul] at this
    exact_mod_cast this
  have hhigh : num ≤ 10 ^ 300 * den := by
    have := h.2
    rw [div_le_iff₀ hdenq] at this
    exact_mod_cast this
  have hleast : 2 ^ BinaryFormat.double.fractionBits * 10 ^ 300 ≤
      2 ^ BinaryFormat.double.depth := by decide +kernel
  have hgreatest : 10 ^ 300 * 2 ^ BinaryFormat.double.depth <
      2 ^ (BinaryFormat.double.fractionBits + (2 ^ BinaryFormat.double.exponentBits - 3)) := by
    decide +kernel
  refine ⟨hden, ?_, ?_⟩
  · calc 2 ^ BinaryFormat.double.fractionBits * den
        ≤ 2 ^ BinaryFormat.double.fractionBits * (num * 10 ^ 300) := Nat.mul_le_mul_left _ hlow
      _ = num * (2 ^ BinaryFormat.double.fractionBits * 10 ^ 300) := Nat.mul_left_comm _ _ _
      _ ≤ num * 2 ^ BinaryFormat.double.depth := Nat.mul_le_mul_left _ hleast
  · calc num * 2 ^ BinaryFormat.double.depth
        ≤ 10 ^ 300 * den * 2 ^ BinaryFormat.double.depth := Nat.mul_le_mul_right _ hhigh
      _ = 10 ^ 300 * 2 ^ BinaryFormat.double.depth * den := Nat.mul_right_comm _ _ _
      _ < _ * den := Nat.mul_lt_mul_of_pos_right hgreatest hden

/-- A quotient of moderate size is rounded to a double close to it. -/
theorem Moderate.near (h : Moderate (num / den)) (hden : 0 < den) (negative : Bool) :
    Near (ofRatio negative num den) (num / den) := by
  obtain ⟨hfinite, herror⟩ := (h.inRange hden).value_roundMagnitude (by decide) negative
  exact ⟨hfinite, herror⟩

theorem cast_mul_multiple (x y : Binary .double) :
    ((x.multiple * y.multiple : ℕ) : ℚ) / (1 <<< (2 * BinaryFormat.double.depth) : ℕ) =
      x.value * y.value := by
  rw [Nat.one_shiftLeft, value, value, div_mul_div_comm, ← pow_add, ← two_mul]
  push_cast
  rfl

theorem cast_div_multiple (x y : Binary .double) :
    (x.multiple : ℚ) / y.multiple = x.value / y.value := by
  rw [value, value, div_div_div_cancel_right₀ (by positivity)]

theorem mul_near (h : Moderate (x.value * y.value)) : Near (x.mul y) (x.value * y.value) := by
  rw [← cast_mul_multiple] at h ⊢
  exact h.near (by rw [Nat.one_shiftLeft]; exact Nat.two_pow_pos _) _

theorem multiple_pos (hy : 0 < y.value) : 0 < y.multiple := by
  refine Nat.pos_of_ne_zero fun h0 => ?_
  rw [value, h0] at hy
  simp at hy

theorem div_near (h : Moderate (x.value / y.value)) (hy : 0 < y.value) :
    Near (x.div y) (x.value / y.value) := by
  rw [← cast_div_multiple] at h ⊢
  exact h.near (multiple_pos hy) _

theorem moderate_of_le {v : ℚ} (hlow : 1 / 10 ^ 200 ≤ v) (hhigh : v ≤ 10 ^ 200) : Moderate v := by
  have hpow : (10 : ℚ) ^ 200 ≤ 10 ^ 300 := pow_le_pow_right₀ (by norm_num) (by norm_num)
  exact ⟨(one_div_le_one_div_of_le (by positivity) hpow).trans hlow, hhigh.trans hpow⟩

theorem powerOfTen_near {k : Nat} (hk : k ≤ 60) : Near (powerOfTen k) (10 ^ k) := by
  have hcast : ((tenTo k : ℕ) : ℚ) / (1 : ℕ) = 10 ^ k := by simp [tenTo_eq]
  have hone : (1 : ℚ) ≤ 10 ^ k := one_le_pow₀ (by norm_num)
  have hmoderate : Moderate ((tenTo k : ℕ) / (1 : ℕ)) := by
    rw [hcast]
    refine ⟨le_trans ?_ hone, pow_le_pow_right₀ (by norm_num) (by omega)⟩
    exact div_le_one_of_le₀ (one_le_pow₀ (by norm_num)) (by positivity)
  rw [← hcast]
  exact hmoderate.near (by decide) _

/-- A quotient that is a whole number of at most fifty-three bits, shifted, stays as it is. -/
theorem value_of_exact (negative : Bool) {n j : Nat} (hden : 0 < den) (hn : n < 2 ^ 53)
    (hj : j ≤ 2000) (h : (num / den : ℚ) = n * 2 ^ j / 2 ^ BinaryFormat.double.depth) :
    (ofRatio negative num den : Binary .double).value = num / den := by
  have hbits : BinaryFormat.double.exponentBits = 11 := rfl
  exact value_roundMagnitude_exact negative hden hn (by rw [hbits]; omega) h

theorem value_mul {n j : Nat} (hn : n < 2 ^ 53) (hj : j ≤ 2000)
    (h : x.value * y.value = n * 2 ^ j / 2 ^ BinaryFormat.double.depth) :
    (x.mul y).value = x.value * y.value := by
  rw [← cast_mul_multiple] at h ⊢
  exact value_of_exact _ (by rw [Nat.one_shiftLeft]; exact Nat.two_pow_pos _) hn hj h

theorem value_div {n j : Nat} (hy : 0 < y.multiple) (hn : n < 2 ^ 53) (hj : j ≤ 2000)
    (h : x.value / y.value = n * 2 ^ j / 2 ^ BinaryFormat.double.depth) :
    (x.div y).value = x.value / y.value := by
  rw [← cast_div_multiple] at h ⊢
  exact value_of_exact _ hy hn hj h

theorem value_ofNat_shift {n j : Nat} (hn : n < 2 ^ 53) (hj : j ≤ 900) :
    (ofNat (n * 2 ^ j) : Binary .double).value = (n * 2 ^ j : ℕ) := by
  have hdepth : BinaryFormat.double.depth = 1074 := rfl
  have hexact : ((n * 2 ^ j : ℕ) / (1 : ℕ) : ℚ) =
      n * 2 ^ (j + BinaryFormat.double.depth) / 2 ^ BinaryFormat.double.depth := by
    rw [pow_add]
    field_simp
    push_cast
    ring
  rw [ofNat, value_of_exact false Nat.one_pos hn (by omega) hexact, Nat.cast_one, div_one]

theorem value_ofNat {n : Nat} (hn : n < 2 ^ 53) : (ofNat n : Binary .double).value = n := by
  simpa using value_ofNat_shift hn (Nat.zero_le _)

/-- A power of ten with a small exponent is a double. -/
theorem value_powerOfTen {k : Nat} (hk : k ≤ 22) : (powerOfTen k).value = 10 ^ k := by
  have hfive : 5 ^ k < 2 ^ 53 := (Nat.pow_le_pow_right (by decide) hk).trans_lt (by decide)
  have hten : tenTo k = 5 ^ k * 2 ^ k := by rw [tenTo_eq, ← Nat.mul_pow]
  rw [powerOfTen, hten, value_ofNat_shift hfive (by omega), ← hten, tenTo_eq]
  push_cast
  rfl

/-! ## Decimals -/

theorem scale_of_nonneg {k : Int} (hk : 0 ≤ k) (hle : k ≤ 60)
    (hfinite : (x.mul (powerOfTen k.toNat)).isInfinite = false) :
    scale 4 x k = some (x.mul (powerOfTen k.toNat)) := by
  rw [scale, if_pos (by omega), if_pos hk]
  dsimp only
  rw [hfinite, if_neg Bool.false_ne_true]

theorem scale_of_neg {k : Int} (hk : k < 0) (hle : -60 ≤ k) :
    scale 4 x k = some (x.div (powerOfTen (-k).toNat)) := by
  rw [scale, if_pos (by omega), if_neg (by omega)]

/-- A double that a decimal is read as: almost the decimal, and the decimal itself if nothing has to
be rounded. -/
structure Reads (c : Nat) (k : Int) (y : Binary .double) : Prop where
  read : scale 4 (ofNat c) k = some y
  sign : y.negative = false
  finite : y.isInfinite = false
  error : |y.value - c * 10 ^ k| ≤ c * 10 ^ k / 2 ^ 51
  exact_of_eq : k.natAbs ≤ 22 → ∀ n j : Nat, n < 2 ^ 53 → j ≤ 2000 →
    (c : ℚ) * 10 ^ k = n * 2 ^ j / 2 ^ BinaryFormat.double.depth → y.value = c * 10 ^ k

theorem powerOfTen_between {k : Nat} (hk : k ≤ 60) :
    (10 : ℚ) ^ k / 2 ≤ (powerOfTen k).value ∧ (powerOfTen k).value ≤ 2 * 10 ^ k ∧
      |(powerOfTen k).value - 10 ^ k| ≤ 10 ^ k / 2 ^ 53 := by
  have herror := (powerOfTen_near hk).error
  have hten : (0 : ℚ) < 10 ^ k := by positivity
  obtain ⟨hlow, hhigh⟩ := abs_le.1 herror
  refine ⟨?_, ?_, herror⟩
  · linarith
  · linarith

theorem cast_lt {c : Nat} (hlt : c < 2 ^ 53) : (c : ℚ) ≤ 10 ^ 16 := by
  have : c ≤ 10 ^ 16 := by omega
  exact_mod_cast this

/-- Two steps add up their errors. -/
theorem abs_sub_le_of_steps {a b v : ℚ} (hsecond : |a - b| ≤ b / 2 ^ 53)
    (hfirst : |b - v| ≤ 2 * v / 2 ^ 53) (hle : b ≤ 2 * v) : |a - v| ≤ v / 2 ^ 51 :=
  calc |a - v| = |(a - b) + (b - v)| := by ring_nf
    _ ≤ |a - b| + |b - v| := abs_add_le _ _
    _ ≤ v / 2 ^ 51 := by linarith

theorem exists_reads_of_nonneg {c k : Nat} (hc : 0 < c) (hlt : c < 2 ^ 53) (hk : k ≤ 60) :
    ∃ y, Reads c k y := by
  obtain ⟨hlow, hhigh, herror⟩ := powerOfTen_between hk
  have hone : (1 : ℚ) ≤ c := by exact_mod_cast hc
  have hgreat := cast_lt hlt
  have hten : (1 : ℚ) ≤ 10 ^ k := one_le_pow₀ (by norm_num)
  have hten' : (10 : ℚ) ^ k ≤ 10 ^ 60 := pow_le_pow_right₀ (by norm_num) hk
  have hmoderate : Moderate ((ofNat c : Binary .double).value * (powerOfTen k).value) := by
    rw [value_ofNat hlt]
    refine moderate_of_le ?_ ?_
    · nlinarith
    · nlinarith
  have hnear := mul_near hmoderate
  have hnonneg : (0 : Int) ≤ k := Int.natCast_nonneg k
  refine ⟨_, scale_of_nonneg hnonneg (by omega) hnear.finite, rfl, hnear.finite, ?_, ?_⟩
  · have hsecond := hnear.error
    rw [value_ofNat hlt] at hsecond
    rw [Int.toNat_natCast, zpow_natCast]
    refine abs_sub_le_of_steps hsecond ?_ (by nlinarith)
    rw [← mul_sub, abs_mul, abs_of_nonneg (by linarith)]
    nlinarith
  · intro hsmall n j hn hj h
    have hexact : (ofNat c : Binary .double).value * (powerOfTen k).value = c * 10 ^ (k : Int) := by
      rw [value_ofNat hlt, value_powerOfTen (by simpa using hsmall), zpow_natCast]
    rw [← hexact] at h ⊢
    exact value_mul hn hj h

theorem exists_reads_of_neg {c k : Nat} (hc : 0 < c) (hlt : c < 2 ^ 53) (hpos : 0 < k)
    (hk : k ≤ 60) : ∃ y, Reads c (-(k : Int)) y := by
  obtain ⟨hlow, hhigh, herror⟩ := powerOfTen_between hk
  have hone : (1 : ℚ) ≤ c := by exact_mod_cast hc
  have hgreat := cast_lt hlt
  have hten : (1 : ℚ) ≤ 10 ^ k := one_le_pow₀ (by norm_num)
  have hten' : (10 : ℚ) ^ k ≤ 10 ^ 60 := pow_le_pow_right₀ (by norm_num) hk
  have hpower : 0 < (powerOfTen k).value := by linarith
  have hmoderate : Moderate ((ofNat c : Binary .double).value / (powerOfTen k).value) := by
    rw [value_ofNat hlt]
    refine moderate_of_le ?_ ?_
    · rw [le_div_iff₀ hpower]
      linarith
    · rw [div_le_iff₀ hpower]
      linarith
  have hnear := div_near hmoderate hpower
  have htoNat : (-(-(k : Int))).toNat = k := by omega
  refine ⟨_, scale_of_neg (by omega) (by omega), rfl, ?_, ?_, ?_⟩
  · rw [htoNat]
    exact hnear.finite
  · have hsecond := hnear.error
    rw [value_ofNat hlt] at hsecond
    rw [htoNat, zpow_neg, zpow_natCast, ← div_eq_mul_inv]
    have hquotient : c / (powerOfTen k).value ≤ 2 * (c / 10 ^ k : ℚ) := by
      rw [← mul_div_assoc, div_le_div_iff₀ hpower (by linarith)]
      nlinarith
    refine abs_sub_le_of_steps hsecond ?_ hquotient
    have hcross : c / (powerOfTen k).value - (c / 10 ^ k : ℚ) =
        c / (powerOfTen k).value * ((10 ^ k - (powerOfTen k).value) / 10 ^ k) := by
      field_simp
    have hrelative : |(10 ^ k - (powerOfTen k).value) / (10 : ℚ) ^ k| ≤ 1 / 2 ^ 53 := by
      rw [abs_div, abs_of_pos (by linarith : (0 : ℚ) < 10 ^ k), abs_sub_comm,
        div_le_iff₀ (by linarith)]
      linarith
    rw [hcross, abs_mul, abs_of_pos (by positivity)]
    calc c / (powerOfTen k).value * _ ≤ 2 * (c / 10 ^ k : ℚ) * (1 / 2 ^ 53) := by gcongr
      _ = _ := by ring
  · intro hsmall n j hn hj h
    have hexact : (ofNat c : Binary .double).value / (powerOfTen k).value =
        c * 10 ^ (-(k : Int)) := by
      rw [value_ofNat hlt, value_powerOfTen (by simpa using hsmall), zpow_neg, zpow_natCast,
        div_eq_mul_inv]
    rw [htoNat]
    rw [← hexact] at h ⊢
    exact value_div (multiple_pos hpower) hn hj h

/-- A decimal of moderate size is read. -/
theorem exists_reads {c : Nat} {k : Int} (hc : 0 < c) (hlt : c < 2 ^ 53) (hk : k.natAbs ≤ 60) :
    ∃ y, Reads c k y := by
  obtain ⟨n, rfl | rfl⟩ := k.eq_nat_or_neg
  · exact exists_reads_of_nonneg hc hlt (by simpa using hk)
  · by_cases hn : n = 0
    · subst hn
      exact exists_reads_of_nonneg hc hlt (by decide)
    · exact exists_reads_of_neg hc hlt (by omega) (by simpa using hk)

end Banknote.Binary
