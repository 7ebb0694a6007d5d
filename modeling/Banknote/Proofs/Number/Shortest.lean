import Banknote.Proofs.Number.Rounding
import Mathlib.Algebra.Order.Field.Power

/-!
# What the shortest decimal of a number is

The shortest decimal is looked for on one decimal grid after the other.

* One grid.  `Centered.nearest?_spec`: what is found lies in the interval and within half a step of
  the value, if the value is in the middle of its interval.  `Centered.nearest?_isSome`: something
  is found as soon as a step fits between the lower end and the value.
* The first grid.  `order_spec`: its steps are the longest ones that do not exceed the value.
* The last grid.  `scan_spec`: something is found, and on a grid that is not much finer than it must
  be.  `shortest_spec` says this of the shortest decimal.
-/

namespace Banknote

theorem tenTo_eq (k : Nat) : tenTo k = 10 ^ k := rfl

/-- A power of ten as a quotient of two natural numbers. -/
theorem zpow_eq_tenTo_div (k : Int) : (10 : ℚ) ^ k = tenTo k.toNat / tenTo (-k).toNat := by
  obtain ⟨n, rfl | rfl⟩ := k.eq_nat_or_neg
  · simp [tenTo_eq]
  · simp [tenTo_eq]

theorem tenTo_pos (k : Nat) : 0 < tenTo k := Nat.pow_pos (by decide)

namespace Rounding

variable {r : Rounding} {c : Nat} {k : Int}

/-! ## Decimals in the interval -/

theorem mul_zpow_eq (c : Nat) (k : Int) :
    (c : ℚ) * 10 ^ k = ((c * tenTo k.toNat : ℕ) : ℚ) / (tenTo (-k).toNat : ℕ) := by
  rw [zpow_eq_tenTo_div]
  push_cast
  ring

theorem contains_iff (hr : 0 < r.denominator) :
    r.contains c k = true ↔ r.Holds (c * 10 ^ k) := by
  rw [mul_zpow_eq, holds_div_iff hr (tenTo_pos _), contains]
  split <;> simp

/-- The distance is measured in a unit that depends on the grid only. -/
theorem distance_eq (hr : 0 < r.denominator) :
    (r.distance c k : ℚ) =
      |(c : ℚ) * 10 ^ k - r.center| * (r.denominator * tenTo (-k).toNat) := by
  have hr : (0 : ℚ) < r.denominator := by exact_mod_cast hr
  have hten : (0 : ℚ) < tenTo (-k).toNat := by exact_mod_cast tenTo_pos _
  have habs (a b : ℕ) : ((a - b + (b - a) : ℕ) : ℚ) = |(a : ℚ) - b| := by
    rcases Nat.le_total a b with h | h
    · rw [Nat.sub_eq_zero_of_le h, Nat.zero_add, Nat.cast_sub h, abs_sub_comm, abs_of_nonneg]
      exact sub_nonneg.2 (by exact_mod_cast h)
    · rw [Nat.sub_eq_zero_of_le h, Nat.add_zero, Nat.cast_sub h, abs_of_nonneg]
      exact sub_nonneg.2 (by exact_mod_cast h)
  rw [distance, habs, ← abs_of_pos (mul_pos hr hten), ← abs_mul, mul_zpow_eq, center]
  congr 1
  push_cast
  field_simp

/-! ## One grid -/

/-- An interval around its value, with ends at the same distance from it. -/
structure Centered (r : Rounding) : Prop where
  denominator_pos : 0 < r.denominator
  lower_lt : r.lower < r.center
  lower_add_upper : r.lower + r.upper = 2 * r.center

theorem Centered.lt_upper (h : r.Centered) : r.center < r.upper := by
  linarith [h.lower_lt, h.lower_add_upper]

/-- The greatest number of steps of a grid that does not exceed the value. -/
def steps (r : Rounding) (k : Int) : Nat :=
  r.value * tenTo (-k).toNat / (tenTo k.toNat * r.denominator)

theorem steps_le (hr : 0 < r.denominator) : (r.steps k : ℚ) * 10 ^ k ≤ r.center := by
  have hdiv : r.steps k * (tenTo k.toNat * r.denominator) ≤ r.value * tenTo (-k).toNat :=
    Nat.div_mul_le_self _ _
  have hr : (0 : ℚ) < r.denominator := by exact_mod_cast hr
  have hten : (0 : ℚ) < tenTo (-k).toNat := by exact_mod_cast tenTo_pos _
  rw [center, mul_zpow_eq, div_le_div_iff₀ hten hr]
  rw [← Nat.mul_assoc] at hdiv
  exact_mod_cast hdiv

theorem lt_steps_succ (hr : 0 < r.denominator) :
    r.center < (r.steps k + 1 : ℕ) * 10 ^ k := by
  have hdiv : r.value * tenTo (-k).toNat < (r.steps k + 1) * (tenTo k.toNat * r.denominator) := by
    rw [Nat.mul_comm (r.steps k + 1)]
    exact Nat.lt_mul_div_succ _ (Nat.mul_pos (tenTo_pos _) hr)
  have hr : (0 : ℚ) < r.denominator := by exact_mod_cast hr
  have hten : (0 : ℚ) < tenTo (-k).toNat := by exact_mod_cast tenTo_pos _
  rw [center, mul_zpow_eq, div_lt_div_iff₀ hr hten]
  rw [← Nat.mul_assoc] at hdiv
  exact_mod_cast hdiv

theorem upper_le_of_not_holds {v : ℚ} (h : ¬ r.Holds v) (hlow : r.lower < v) : r.upper ≤ v :=
  not_lt.1 fun hlt => h (holds_of_lt hlow hlt)

theorem le_lower_of_not_holds {v : ℚ} (h : ¬ r.Holds v) (hhigh : v < r.upper) : v ≤ r.lower :=
  not_lt.1 fun hlt => h (holds_of_lt hlt hhigh)

/-- What is found on a grid lies in the interval, within half a step of the value. -/
theorem Centered.nearest?_spec (h : r.Centered) (hc : r.nearest? k = some c) :
    r.Holds (c * 10 ^ k) ∧ 2 * |(c : ℚ) * 10 ^ k - r.center| ≤ 10 ^ k := by
  have hlow : (r.steps k : ℚ) * 10 ^ k ≤ r.center := steps_le h.denominator_pos
  have hhigh := lt_steps_succ (k := k) h.denominator_pos
  have hsum := h.lower_add_upper
  have hnext : ((r.steps k + 1 : ℕ) : ℚ) * 10 ^ k = r.steps k * 10 ^ k + 10 ^ k := by
    push_cast
    ring
  have hdown : |(r.steps k : ℚ) * 10 ^ k - r.center| = r.center - r.steps k * 10 ^ k := by
    rw [abs_sub_comm, abs_of_nonneg (sub_nonneg.2 hlow)]
  have hup : |((r.steps k + 1 : ℕ) : ℚ) * 10 ^ k - r.center| =
      (r.steps k + 1 : ℕ) * 10 ^ k - r.center :=
    abs_of_pos (sub_pos.2 hhigh)
  have hunit : (0 : ℚ) < r.denominator * tenTo (-k).toNat := by
    exact_mod_cast Nat.mul_pos h.denominator_pos (tenTo_pos _)
  rw [nearest?, ← steps] at hc
  split at hc
  · -- Both neighbours are inside: the nearer one is taken, and either one at a tie.
    rename_i hin hin'
    rw [contains_iff h.denominator_pos] at hin hin'
    have hcompare (a b : ℚ) : a * (r.denominator * tenTo (-k).toNat) ≤
        b * (r.denominator * tenTo (-k).toNat) ↔ a ≤ b := mul_le_mul_iff_of_pos_right hunit
    have hbelow : r.distance (r.steps k) k ≤ r.distance (r.steps k + 1) k →
        2 * |(r.steps k : ℚ) * 10 ^ k - r.center| ≤ 10 ^ k := by
      rw [← Nat.cast_le (α := ℚ), distance_eq h.denominator_pos, distance_eq h.denominator_pos,
        hcompare, hdown, hup]
      intro hle
      linarith
    have habove : r.distance (r.steps k + 1) k ≤ r.distance (r.steps k) k →
        2 * |((r.steps k + 1 : ℕ) : ℚ) * 10 ^ k - r.center| ≤ 10 ^ k := by
      rw [← Nat.cast_le (α := ℚ), distance_eq h.denominator_pos, distance_eq h.denominator_pos,
        hcompare, hdown, hup]
      intro hle
      linarith
    obtain rfl := Option.some.inj hc
    split
    · exact ⟨hin, hbelow (by omega)⟩
    · split
      · exact ⟨hin', habove (by omega)⟩
      · rcases Nat.mod_two_eq_zero_or_one (r.steps k) with heven | hodd
        · rw [heven, Nat.add_zero]
          exact ⟨hin, hbelow (by omega)⟩
        · rw [hodd]
          exact ⟨hin', habove (by omega)⟩
  · rename_i hin hout
    cases hc
    rw [contains_iff h.denominator_pos] at hin
    rw [← Bool.not_eq_true, contains_iff h.denominator_pos] at hout
    have := upper_le_of_not_holds hout (h.lower_lt.trans hhigh)
    refine ⟨hin, ?_⟩
    rw [hdown]
    linarith [hin.le.1]
  · rename_i hout hin
    cases hc
    rw [contains_iff h.denominator_pos] at hin
    rw [← Bool.not_eq_true, contains_iff h.denominator_pos] at hout
    have := le_lower_of_not_holds hout (hlow.trans_lt h.lt_upper)
    refine ⟨hin, ?_⟩
    rw [hup]
    linarith [hin.le.2]
  · cases hc

/-- Something is found on a grid if a step fits between the lower end and the value. -/
theorem Centered.nearest?_isSome (h : r.Centered) (hk : (10 : ℚ) ^ k ≤ r.center - r.lower) :
    (r.nearest? k).isSome := by
  have hlow : (r.steps k : ℚ) * 10 ^ k ≤ r.center := steps_le h.denominator_pos
  have hhigh := lt_steps_succ (k := k) h.denominator_pos
  have hinside : r.contains (r.steps k) k = true := by
    rw [contains_iff h.denominator_pos]
    push_cast at hhigh
    exact holds_of_lt (by linarith) (hlow.trans_lt h.lt_upper)
  rw [nearest?, ← steps, hinside]
  split <;> simp_all

/-! ## The first grid -/

/-- A value of at least one is between two powers of ten, by the number of its whole digits. -/
theorem center_between (hr : 0 < r.denominator) (hle : r.denominator ≤ r.value) :
    (10 : ℚ) ^ (((Nat.toDigits 10 (r.value / r.denominator)).length : Int) - 1) ≤ r.center ∧
      r.center < 10 ^ ((Nat.toDigits 10 (r.value / r.denominator)).length : Int) := by
  have hpos : 0 < r.value / r.denominator := Nat.div_pos hle hr
  have hlow : r.value / r.denominator * r.denominator ≤ r.value := Nat.div_mul_le_self _ _
  have hhigh : r.value < (r.value / r.denominator + 1) * r.denominator := by
    rw [Nat.mul_comm (_ + 1)]
    exact Nat.lt_mul_div_succ _ hr
  generalize r.value / r.denominator = n at *
  obtain ⟨length, hlength⟩ : ∃ length, (Nat.toDigits 10 n).length = length + 1 :=
    Nat.exists_eq_succ_of_ne_zero (Nat.ne_of_gt Nat.length_toDigits_pos)
  have hlt : n < 10 ^ (length + 1) :=
    (Nat.length_toDigits_le_iff (by decide) (by omega)).1 hlength.le
  have hge : 10 ^ length ≤ n := by
    cases length with
    | zero => exact hpos
    | succ length =>
      by_contra hnot
      have := (Nat.length_toDigits_le_iff (by decide) (Nat.succ_pos length)).2 (Nat.not_le.1 hnot)
      omega
  have hr : (0 : ℚ) < r.denominator := by exact_mod_cast hr
  rw [hlength, center, le_div_iff₀ hr, div_lt_iff₀ hr]
  have hexponent : ((length + 1 : ℕ) : Int) - 1 = (length : ℕ) := by omega
  rw [hexponent, zpow_natCast, zpow_natCast]
  constructor
  · exact_mod_cast (Nat.mul_le_mul_right _ hge).trans hlow
  · exact_mod_cast hhigh.trans_le (Nat.mul_le_mul_right _ hlt)

/-- The first grid is the coarsest one that is not coarser than the value. -/
theorem order_spec {fuel : Nat} (hr : 0 < r.denominator)
    (hfuel : r.denominator ≤ r.value * 10 ^ fuel) :
    (10 : ℚ) ^ r.order (fuel + 1) ≤ r.center ∧ r.center < 10 ^ (r.order (fuel + 1) + 1) := by
  induction fuel generalizing r with
  | zero =>
    rw [pow_zero, Nat.mul_one] at hfuel
    rw [order, if_pos hfuel, Int.sub_add_cancel]
    exact center_between hr hfuel
  | succ fuel ih =>
    rw [order]
    split
    · rename_i hle
      rw [Int.sub_add_cancel]
      exact center_between hr hle
    · -- One place further the value is ten times as large.
      have hshift : ({ r with value := r.value * 10 } : Rounding).center = r.center * 10 := by
        simp only [center]
        push_cast
        ring
      obtain ⟨hlow, hhigh⟩ := ih (r := { r with value := r.value * 10 }) hr
        (by rw [pow_succ] at hfuel; linarith)
      rw [hshift] at hlow hhigh
      rw [Int.sub_add_cancel, zpow_sub_one₀ (by norm_num)]
      rw [zpow_add_one₀ (by norm_num)] at hhigh
      constructor
      · linarith
      · linarith

end Rounding

/-! ## The last grid -/

/-- Dropping final zeros keeps the number. -/
theorem Decimal.trimZeros_spec (fuel : Nat) (negative : Bool) (c : Nat) (k : Int) :
    ∃ c' i : Nat, trimZeros fuel ⟨negative, c, k⟩ = ⟨negative, c', k + i⟩ ∧ c = c' * 10 ^ i := by
  induction fuel generalizing c k with
  | zero => exact ⟨c, 0, by simp [trimZeros], by simp⟩
  | succ fuel ih =>
    rw [trimZeros]
    split
    · rename_i hzero
      simp only [Bool.and_eq_true, bne_iff_ne, beq_iff_eq] at hzero
      obtain ⟨c', i, htrim, hc⟩ := ih (c / 10) (k + 1)
      refine ⟨c', i + 1, ?_, ?_⟩
      · rw [htrim]
        push_cast
        rw [Int.add_assoc, Int.add_comm 1]
      · rw [pow_succ, ← Nat.mul_assoc, ← hc]
        omega
    · exact ⟨c, 0, by simp, by simp⟩

/-- The sign has no influence on the digits. -/
theorem Decimal.trimZeros_sign (fuel : Nat) (negative : Bool) (c : Nat) (k : Int) :
    trimZeros fuel ⟨negative, c, k⟩ =
      { trimZeros fuel ⟨false, c, k⟩ with negative := negative } := by
  induction fuel generalizing c k with
  | zero => rfl
  | succ fuel ih =>
    rw [trimZeros, trimZeros]
    split
    · exact ih _ _
    · rfl

theorem Binary.shortest_sign {f : BinaryFormat} (x : Binary f) :
    x.shortest =
      { ({ x with negative := false } : Binary f).shortest with negative := x.negative } := by
  simp only [shortest]
  split
  · rfl
  · split
    · exact Decimal.trimZeros_sign _ _ _ _
    · rfl

/-- The first hit in a range, and the misses before it. -/
theorem findSome?_range_eq_some {α : Type} {g : Nat → Option α} {n : Nat} {a : α}
    (h : (List.range n).findSome? g = some a) :
    ∃ i, g i = some a ∧ ∀ j < i, g j = none := by
  obtain ⟨before, i, after, hrange, hhit, hmiss⟩ := List.findSome?_eq_some_iff.1 h
  have hlength : before.length < (List.range n).length := by simp [hrange]
  have hi : i = before.length := by
    have hget : (List.range n)[before.length]? = some i := by simp [hrange]
    rw [List.getElem?_range (by simpa using hlength)] at hget
    exact (Option.some.inj hget).symm
  refine ⟨i, hhit, fun j hj => hmiss j ?_⟩
  have hget : (List.range n)[j]? = before[j]? := by
    rw [hrange, List.getElem?_append_left (by omega)]
  rw [List.getElem?_range (by simp at hlength; omega)] at hget
  exact List.mem_of_getElem? hget.symm

/-- The scan finds something, on the first grid or on one whose steps are too long to fit ten times
between the lower end and the value. -/
theorem Rounding.Centered.scan_spec {r : Rounding} (h : r.Centered) {top : Int}
    (hfirst : (10 : ℚ) ^ top ≤ r.center) (hfirst' : r.center < 10 ^ (top + 1)) {count : Nat}
    (hgrid : r.center ≤ 10 ^ count * (r.center - r.lower)) (hlower : 0 ≤ r.lower) :
    ∃ c k, (((List.range (count + 1)).map fun (n : Nat) => top - (n : Int)).findSome? fun k =>
        (r.nearest? k).map fun c => (c, k)) = some (c, k) ∧
      r.nearest? k = some c ∧ r.center - r.lower < 10 ^ (k + 1) := by
  rw [List.findSome?_map]
  cases hscan : (List.range (count + 1)).findSome? _ with
  | none =>
    have hmiss := List.findSome?_eq_none_iff.1 hscan count (by simp)
    have hstep : (10 : ℚ) ^ (top - (count : Int)) ≤ r.center - r.lower := by
      rw [zpow_sub₀ (by norm_num), zpow_natCast, div_le_iff₀ (by positivity)]
      linarith
    have hsome := h.nearest?_isSome hstep
    simp only [Function.comp_apply, Option.map_eq_none_iff] at hmiss
    rw [hmiss] at hsome
    cases hsome
  | some hit =>
    obtain ⟨c, k⟩ := hit
    refine ⟨c, k, rfl, ?_⟩
    obtain ⟨i, hhit, hmiss⟩ := findSome?_range_eq_some hscan
    simp only [Function.comp_apply, Option.map_eq_some_iff, Prod.mk.injEq] at hhit
    obtain ⟨_, hnearest, rfl, rfl⟩ := hhit
    refine ⟨hnearest, ?_⟩
    cases i with
    | zero =>
      simp only [Nat.cast_zero, sub_zero]
      linarith
    | succ i =>
      have hbefore := hmiss i (Nat.lt_succ_self i)
      simp only [Function.comp_apply, Option.map_eq_none_iff] at hbefore
      have hexponent : top - ((i + 1 : ℕ) : Int) + 1 = top - i := by omega
      rw [hexponent]
      by_contra hnot
      have hsome := h.nearest?_isSome (not_lt.1 hnot)
      rw [hbefore] at hsome
      cases hsome

/-- The shortest decimal lies in the interval, within half a step of the grid that it was found
on. -/
theorem Binary.shortest_spec {f : BinaryFormat} {x : Binary f} (hx : x.magnitude ≠ 0)
    (h : (Rounding.ofMagnitude f x.magnitude).Centered)
    (hfuel : (Rounding.ofMagnitude f x.magnitude).denominator ≤
      (Rounding.ofMagnitude f x.magnitude).value * 10 ^ f.depth)
    (hgrid : (Rounding.ofMagnitude f x.magnitude).center ≤ 10 ^ (f.fractionBits + 1) *
      ((Rounding.ofMagnitude f x.magnitude).center -
        (Rounding.ofMagnitude f x.magnitude).lower)) :
    ∃ (c i : Nat) (k : Int), x.shortest = ⟨x.negative, c, k + i⟩ ∧
      (Rounding.ofMagnitude f x.magnitude).Holds (c * 10 ^ (k + i)) ∧
      2 * |(c : ℚ) * 10 ^ (k + i) - (Rounding.ofMagnitude f x.magnitude).center| ≤ 10 ^ k ∧
      (Rounding.ofMagnitude f x.magnitude).center - (Rounding.ofMagnitude f x.magnitude).lower <
        10 ^ (k + 1) := by
  rw [shortest, if_neg (by simpa using hx)]
  dsimp only
  generalize Rounding.ofMagnitude f x.magnitude = r at *
  obtain ⟨hfirst, hfirst'⟩ := Rounding.order_spec h.denominator_pos hfuel
  have hlower : 0 ≤ r.lower := by
    rw [Rounding.lower]
    positivity
  obtain ⟨c, k, hscan, hnearest, hcoarse⟩ := h.scan_spec hfirst hfirst' hgrid hlower
  obtain ⟨c', i, htrim, rfl⟩ := Decimal.trimZeros_spec 20 x.negative c k
  obtain ⟨hholds, hnear⟩ := h.nearest?_spec hnearest
  have hvalue : ((c' * 10 ^ i : ℕ) : ℚ) * 10 ^ k = c' * 10 ^ (k + (i : Int)) := by
    rw [zpow_add₀ (by norm_num), zpow_natCast]
    push_cast
    ring
  rw [hvalue] at hholds hnear
  rw [hscan]
  exact ⟨c', i, k, htrim, hholds, hnear, hcoarse⟩

end Banknote
