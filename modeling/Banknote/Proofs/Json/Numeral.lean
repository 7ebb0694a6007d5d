import Banknote.Json.Document

/-!
# Numerals are read as they are written

`scanNumeral_text` says that the text of a well-formed numeral is read back as that numeral, as long
as what follows does not continue it.  The numerals that are written for natural and for binary
numbers are well formed (`wellFormed_ofNat`, `wellFormed_ofBinary`), and `value?_ofNat` reads the
number back from the first kind.
-/

namespace Banknote.Json

/-! ## Runs of digits -/

/-- A run of digits that is not empty. -/
def IsDigits (digits : List Char) : Prop := digits ≠ [] ∧ ∀ c ∈ digits, c.isDigit = true

/-- A text that starts with no digit. -/
def NoDigitNext (rest : List Char) : Prop := ∀ c ∈ rest.head?, c.isDigit = false

theorem takeWhile_isDigit {digits rest : List Char} (h : ∀ c ∈ digits, c.isDigit = true)
    (hrest : NoDigitNext rest) : (digits ++ rest).takeWhile Char.isDigit = digits := by
  rw [List.takeWhile_append_of_pos h]
  cases rest with
  | nil => simp
  | cons c rest => simp [hrest c rfl]

theorem dropWhile_isDigit {digits rest : List Char} (h : ∀ c ∈ digits, c.isDigit = true)
    (hrest : NoDigitNext rest) : (digits ++ rest).dropWhile Char.isDigit = rest := by
  rw [List.dropWhile_append_of_pos h]
  cases rest with
  | nil => rfl
  | cons c rest => simp [hrest c rfl]

theorem scanDigits_append {digits rest : List Char} (h : IsDigits digits)
    (hrest : NoDigitNext rest) : scanDigits (digits ++ rest) = .ok (digits, rest) := by
  rw [scanDigits, takeWhile_isDigit h.2 hrest, dropWhile_isDigit h.2 hrest]
  simp [h.1]

/-- A run of digits starts with a digit. -/
theorem IsDigits.exists_cons {digits : List Char} (h : IsDigits digits) :
    ∃ c rest, digits = c :: rest ∧ c.isDigit = true := by
  cases digits with
  | nil => exact absurd rfl h.1
  | cons c rest => exact ⟨c, rest, rfl, h.2 c List.mem_cons_self⟩

theorem IsDigits.head?_append {digits : List Char} (h : IsDigits digits) (rest : List Char) :
    (digits ++ rest).head? = digits.head? := by
  obtain ⟨c, tail, rfl, _⟩ := h.exists_cons
  rfl

theorem ne_of_isDigit {c d : Char} (h : c.isDigit = true) (hd : d.isDigit = false) : c ≠ d := by
  rintro rfl
  rw [h] at hd
  cases hd

/-! ## Numerals -/

/-- A numeral that keeps the grammar: digits in every part that is there, and no zero in front of
other whole digits. -/
structure Numeral.WellFormed (n : Numeral) : Prop where
  whole : IsDigits n.whole
  noLeadingZero : n.whole.head? = some '0' → n.whole.length = 1
  fraction : ∀ digits, n.fraction = some digits → IsDigits digits
  exponent : ∀ e, n.exponent = some e → IsDigits e.digits

/-- A text that does not continue a numeral before it. -/
def Stops (rest : List Char) : Prop :=
  ∀ c ∈ rest.head?, c.isDigit = false ∧ c ≠ '.' ∧ c ≠ 'e' ∧ c ≠ 'E'

theorem stops_nil : Stops [] := by simp [Stops]

theorem stops_cons {c : Char} {rest : List Char} (hd : c.isDigit = false) (hpoint : c ≠ '.')
    (he : c ≠ 'e') (hE : c ≠ 'E') : Stops (c :: rest) := by
  intro c' hc'
  obtain rfl : c = c' := by simpa using hc'
  exact ⟨hd, hpoint, he, hE⟩

theorem Stops.noDigitNext {rest : List Char} (h : Stops rest) : NoDigitNext rest :=
  fun c hc => (h c hc).1

/-- The text of the fraction of a numeral. -/
def fractionText : Option (List Char) → List Char
  | some digits => '.' :: digits
  | none => []

/-- The text of the exponent of a numeral. -/
def exponentText : Option Exponent → List Char
  | some e => 'e' :: Numeral.signText e.sign ++ e.digits
  | none => []

theorem text_eq (n : Numeral) :
    n.text = (if n.negative then ['-'] else []) ++ (n.whole ++
      (fractionText n.fraction ++ exponentText n.exponent)) := by
  cases n with
  | mk negative whole fraction exponent =>
    cases fraction <;> cases exponent <;> simp [Numeral.text, fractionText, exponentText]

theorem scanSign_append (sign : ExponentSign) {digits rest : List Char} (h : IsDigits digits) :
    scanSign (Numeral.signText sign ++ (digits ++ rest)) = (sign, digits ++ rest) := by
  cases sign with
  | none =>
    obtain ⟨c, tail, rfl, hc⟩ := h.exists_cons
    have hplus : c ≠ '+' := ne_of_isDigit hc (by decide)
    have hminus : c ≠ '-' := ne_of_isDigit hc (by decide)
    simp [Numeral.signText, scanSign, hplus, hminus]
  | plus => rfl
  | minus => rfl

theorem scanExponent_append {exponent : Option Exponent} {rest : List Char}
    (h : ∀ e, exponent = some e → IsDigits e.digits) (hrest : Stops rest) :
    scanExponent (exponentText exponent ++ rest) = .ok (exponent, rest) := by
  cases exponent with
  | none =>
    cases rest with
    | nil => rfl
    | cons c rest =>
      obtain ⟨_, _, he, hE⟩ := hrest c rfl
      simp [exponentText, scanExponent, he, hE]
  | some e =>
    have hdigits := h e rfl
    simp only [exponentText, List.cons_append, List.append_assoc, scanExponent, true_or, if_true,
      scanSign_append e.sign hdigits, scanDigits_append hdigits hrest.noDigitNext]
    rfl

/-- What follows the whole digits does not continue them. -/
theorem noDigitNext_exponentText (exponent : Option Exponent) {rest : List Char}
    (hrest : Stops rest) :
    NoDigitNext (exponentText exponent ++ rest) ∧
      (exponentText exponent ++ rest).head? ≠ some '.' := by
  cases exponent with
  | none =>
    refine ⟨hrest.noDigitNext, fun h => ?_⟩
    exact (hrest '.' (by simpa [exponentText] using h)).2.1 rfl
  | some e => exact ⟨by simp [NoDigitNext, exponentText], by simp [exponentText]⟩

theorem scanFraction_append {fraction : Option (List Char)} {rest : List Char}
    (h : ∀ digits, fraction = some digits → IsDigits digits) (hdigit : NoDigitNext rest)
    (hpoint : rest.head? ≠ some '.') :
    scanFraction (fractionText fraction ++ rest) = .ok (fraction, rest) := by
  cases fraction with
  | none =>
    cases rest with
    | nil => rfl
    | cons c rest =>
      have hc : c ≠ '.' := by simpa using hpoint
      simp [fractionText, scanFraction, hc]
  | some digits =>
    simp only [fractionText, List.cons_append, scanFraction,
      scanDigits_append (h digits rfl) hdigit]
    rfl

/-- What follows the whole digits does not continue them. -/
theorem noDigitNext_fractionText (fraction : Option (List Char)) {rest : List Char}
    (hrest : NoDigitNext rest) : NoDigitNext (fractionText fraction ++ rest) := by
  cases fraction with
  | none => exact hrest
  | some digits => simp [NoDigitNext, fractionText]

/-- A well-formed numeral is read as it is written. -/
theorem scanNumeral_text {n : Numeral} (h : n.WellFormed) {rest : List Char} (hrest : Stops rest) :
    scanNumeral (n.text ++ rest) = .ok (n, rest) := by
  obtain ⟨negative, whole, fraction, exponent⟩ := n
  obtain ⟨hexp, hpoint⟩ := noDigitNext_exponentText exponent hrest
  have hwhole : scanDigits (whole ++ (fractionText fraction ++ (exponentText exponent ++ rest))) =
      .ok (whole, fractionText fraction ++ (exponentText exponent ++ rest)) :=
    scanDigits_append h.whole (noDigitNext_fractionText fraction hexp)
  have hzero : ¬ (whole.head? = some '0' ∧ 1 < whole.length) := fun hz => by
    have := h.noLeadingZero hz.1
    simp only at this
    omega
  have hfraction := scanFraction_append h.fraction hexp hpoint
  have hexponent := scanExponent_append h.exponent hrest
  simp only at hfraction hexponent
  obtain ⟨c, tail, hcons, hc⟩ := h.whole.exists_cons
  simp only at hcons
  have hminus : c ≠ '-' := ne_of_isDigit hc (by decide)
  rw [text_eq]
  cases negative with
  | true =>
    simp only [if_true, List.append_assoc, List.cons_append, List.nil_append, scanNumeral, hwhole,
      if_neg hzero, hfraction, hexponent, bind, Except.bind, pure, Except.pure]
  | false =>
    subst hcons
    simp only [Bool.false_eq_true, if_false, List.append_assoc, List.cons_append,
      List.nil_append] at hwhole ⊢
    have hsign : ∀ rest', c :: (tail ++ (fractionText fraction ++ (exponentText exponent ++ rest))) =
        '-' :: rest' → False := fun _ heq => hminus (List.cons.inj heq).1
    simp only [scanNumeral, hwhole, if_neg hzero, hfraction, hexponent, bind, Except.bind,
      pure, Except.pure]

/-! ## The numerals that are written -/

theorem isDigits_toDigits (n : Nat) : IsDigits (Nat.toDigits 10 n) :=
  ⟨Nat.toDigits_ne_nil, fun _ hc => Nat.isDigit_of_mem_toDigits (by decide) (by decide) hc⟩

theorem digitChar_ne_zero : ∀ n < 10, n ≠ 0 → Nat.digitChar n ≠ '0' := by decide

/-- The digits of a positive number start with no zero. -/
theorem head?_toDigits {n : Nat} (h : n ≠ 0) : (Nat.toDigits 10 n).head? ≠ some '0' := by
  induction n using Nat.strongRecOn with
  | ind n ih =>
    by_cases hlt : n < 10
    · rw [Nat.toDigits_of_lt_base hlt]
      simpa using digitChar_ne_zero n hlt h
    · rw [Nat.toDigits_of_base_le (by decide) (by omega),
        (isDigits_toDigits (n / 10)).head?_append]
      exact ih (n / 10) (by omega) (by omega)

theorem wellFormed_ofNat (n : Nat) : (Numeral.ofNat n).WellFormed where
  whole := isDigits_toDigits n
  noLeadingZero hzero := by
    by_cases hn : n = 0
    · subst hn
      rfl
    · exact absurd hzero (head?_toDigits hn)
  fraction _ h := by cases h
  exponent _ h := by cases h

theorem digitsValue_toDigits (n : Nat) : digitsValue (Nat.toDigits 10 n) = n := by
  have hcomm : (fun (n : Nat) (c : Char) => n * 10 + digitValue c) =
      fun n c => 10 * n + (c.toNat - '0'.toNat) := by
    funext n c
    rw [Nat.mul_comm]
    rfl
  rw [digitsValue, hcomm, ← Nat.ofDigitChars_eq_foldl, Nat.ofDigitChars_ten_toDigits]

/-- A natural number below the limit is read from its numeral. -/
theorem value?_ofNat {n : Nat} (h : n ≤ maxSignificand) :
    (Numeral.ofNat n).value? = some (.natural n) := by
  simp [Numeral.value?, Numeral.ofNat, digitsValue_toDigits, h]

/-- A natural number that a numeral stands for is below the limit. -/
theorem value?_le {n : Numeral} {m : Nat} (h : n.value? = some (.natural m)) :
    m ≤ maxSignificand := by
  rw [Numeral.value?] at h
  split at h
  · rename_i hplain
    simp only [Bool.and_eq_true, decide_eq_true_eq] at hplain
    split at h
    · split at h <;> cases h
    · cases h
      exact hplain.2
  · obtain ⟨x, _, hx⟩ := Option.map_eq_some_iff.1 h
    cases hx

theorem isDigits_take {digits : List Char} (h : IsDigits digits) {n : Nat} (hn : 0 < n) :
    IsDigits (digits.take n) := by
  obtain ⟨c, rest, rfl, _⟩ := h.exists_cons
  refine ⟨?_, fun d hd => h.2 d (List.mem_of_mem_take hd)⟩
  obtain ⟨m, rfl⟩ : ∃ m, n = m + 1 := ⟨n - 1, by omega⟩
  simp

theorem isDigits_drop {digits : List Char} (h : IsDigits digits) {n : Nat}
    (hn : n < digits.length) : IsDigits (digits.drop n) := by
  refine ⟨fun hnil => ?_, fun d hd => h.2 d (List.mem_of_mem_drop hd)⟩
  have := congrArg List.length hnil
  simp only [List.length_drop, List.length_nil] at this
  omega

theorem isDigits_append {digits more : List Char} (h : IsDigits digits)
    (hmore : ∀ c ∈ more, c.isDigit = true) : IsDigits (digits ++ more) := by
  refine ⟨by simp [h.1], fun c hc => ?_⟩
  rcases List.mem_append.1 hc with hc | hc
  · exact h.2 c hc
  · exact hmore c hc

theorem isDigit_of_mem_zeros {n : Nat} {c : Char} (h : c ∈ List.replicate n '0') :
    c.isDigit = true := by
  rw [List.eq_of_mem_replicate h]
  rfl

/-- Every decimal is laid out as a well-formed numeral. -/
theorem wellFormed_ofDecimal (style : Numeral.Layout) (d : Decimal) :
    (Numeral.ofDecimal style d).WellFormed := by
  have hzeros : IsDigits ['0'] := ⟨by simp, by simp⟩
  have hdigits := isDigits_toDigits d.digits
  have hlength : 0 < (Nat.toDigits 10 d.digits).length := Nat.length_toDigits_pos
  simp only [Numeral.ofDecimal]
  split
  · exact ⟨hzeros, fun _ => rfl, by simp [hzeros], by simp⟩
  rename_i hne
  have hhead := head?_toDigits hne
  split
  · refine ⟨isDigits_append hdigits fun c => isDigit_of_mem_zeros, fun h => ?_, by simp [hzeros],
      by simp⟩
    rw [hdigits.head?_append] at h
    exact absurd h hhead
  split
  · rename_i hrange hpoint
    simp only [Bool.and_eq_true, decide_eq_true_eq] at hrange hpoint
    refine ⟨isDigits_take hdigits (by omega), fun h => ?_, ?_, by simp⟩
    · rw [List.head?_take] at h
      split at h
      · cases h
      · exact absurd h hhead
    · intro digits h
      cases h
      exact isDigits_drop hdigits (by omega)
  split
  · refine ⟨hzeros, fun _ => rfl, ?_, by simp⟩
    intro digits h
    cases h
    refine ⟨by simp [hdigits.1], fun c hc => ?_⟩
    rcases List.mem_append.1 hc with hc | hc
    · exact isDigit_of_mem_zeros hc
    · exact hdigits.2 c hc
  · refine ⟨isDigits_take hdigits (by decide), fun h => ?_, ?_, ?_⟩
    · rw [List.head?_take] at h
      exact absurd h (by simpa using hhead)
    · intro digits h
      simp only at h
      split at h
      · cases h
      · cases h
        exact isDigits_drop hdigits (by omega)
    · intro e h
      cases h
      exact isDigits_toDigits _

theorem wellFormed_ofBinary {f : BinaryFormat} (x : Binary f) :
    (Numeral.ofBinary x).WellFormed :=
  wellFormed_ofDecimal (Numeral.layout f) x.shortest

end Banknote.Json
