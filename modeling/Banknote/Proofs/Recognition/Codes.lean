import Banknote.Proofs.Recognition.Process

/-!
# Codes in requests and codes in tables

A request may spell its code in any case and with blanks around it, and the table is searched for
the code in upper case and without these blanks.  A table may list any text as a code.  So a
currency is found under its own code exactly if that code is already in the form that is searched
for.

* Forms.  `normalizedCode_of_capitals`: a code of capital letters is in that form.
* Requests.  `process_eq_unknown_iff`: a code is unknown exactly if its form is not listed.
* Tables.  `process_listed` says what becomes of a request under a code that is listed, and
  `listed_refused` that it may be refused.
-/

namespace Banknote.Recognition

/-! ## Forms -/

theorem trim_eq_self {text : List Char} (h : ∀ c ∈ text, Text.isBlank c = false) :
    Text.trim text = text := by
  have hfront : text.dropWhile Text.isBlank = text := by
    cases text with
    | nil => rfl
    | cons c rest => simp [h c List.mem_cons_self]
  have hback : text.reverse.dropWhile Text.isBlank = text.reverse := by
    cases hreverse : text.reverse with
    | nil => rfl
    | cons c rest =>
      have hc : c ∈ text := by
        rw [← List.mem_reverse, hreverse]
        exact List.mem_cons_self
      simp [h c hc]
  rw [Text.trim, hfront, hback, List.reverse_reverse]

theorem upper_eq_self {text : List Char} (h : ∀ c ∈ text, Text.upperChar c = [c]) :
    Text.upper text = text := by
  induction text with
  | nil => rfl
  | cons c rest ih =>
    obtain ⟨hc, hrest⟩ := List.forall_mem_cons.1 h
    have hrest' : rest.flatMap Text.upperChar = rest := ih hrest
    rw [Text.upper, List.flatMap_cons, hc, hrest']
    rfl

theorem upperChar_of_capital {c : Char} (hfirst : 65 ≤ c.toNat) (hlast : c.toNat ≤ 90) :
    Text.upperChar c = [c] := by
  have hsmall : ¬ ('a'.val ≤ c.val ∧ c.val ≤ 'z'.val) := by
    rintro ⟨hle, _⟩
    have hle : 97 ≤ c.toNat := hle
    omega
  have hupper : c.toUpper = c := dif_neg hsmall
  rw [Text.upperChar, if_pos (by omega), hupper]

/-- A code of capital letters is in the form that is searched for. -/
theorem normalizedCode_of_capitals {code : String} (h : ∀ c ∈ code.toList, 'A' ≤ c ∧ c ≤ 'Z') :
    normalizedCode code = code := by
  have hrange : ∀ c ∈ code.toList, 65 ≤ c.toNat ∧ c.toNat ≤ 90 := fun c hc => h c hc
  have hblank : ∀ c ∈ code.toList, Text.isBlank c = false := by
    intro c hc
    have hc := hrange c hc
    simp only [Text.isBlank, Bool.or_eq_false_iff, Bool.and_eq_false_iff, decide_eq_false_iff_not,
      beq_eq_false_iff_ne]
    omega
  have hupper : ∀ c ∈ code.toList, Text.upperChar c = [c] := fun c hc =>
    upperChar_of_capital (hrange c hc).1 (hrange c hc).2
  rw [normalizedCode, trim_eq_self hblank, upper_eq_self hupper, String.ofList_toList]

/-! ## Requests -/

section

variable {source : Config.Table} {t : CurrencyTable}

theorem get?_eq_none_iff_source (h : CurrencyTable.ofConfig source = .ok t) {code : String} :
    t.get? code = none ↔ source.get? code = none := by
  have hkeys := KeyMap.keys_traverse (CurrencyTable.ofConfig_ok h).1
  rw [CurrencyTable.get?, KeyMap.get?_eq_none_iff, KeyMap.get?_eq_none_iff, hkeys]

/-- The code of a request is unknown exactly if the table does not list the form of it. -/
theorem process_eq_unknown_iff (h : CurrencyTable.ofConfig source = .ok t) {s : Settings}
    {r : Request} {named : String} :
    process t s r = .error (.unknownCurrency named) ↔
      named = normalizedCode r.currencyCode ∧ t.get? (normalizedCode r.currencyCode) = none := by
  rw [process_eq_iff h, get?_eq_none_iff_source h]
  constructor
  · intro hanswer
    cases hanswer with
    | unknownCurrency hlisted => exact ⟨rfl, hlisted⟩
    | unresolved _ _ _ hresolves => cases hresolves
  · rintro ⟨rfl, hlisted⟩
    exact .unknownCurrency hlisted

/-! ## Tables -/

theorem lookup_code (h : CurrencyTable.ofConfig source = .ok t) {code : String} {c : Currency}
    (hlookup : t.lookup code = .ok c) : c.code = code := by
  cases hlisted : source.get? code with
  | none =>
    rw [lookup_of_none h hlisted] at hlookup
    cases hlookup
  | some config =>
    obtain ⟨c', hcompile, hlookup'⟩ := lookup_of_some h hlisted
    rw [hlookup] at hlookup'
    cases hlookup'
    exact (Currency.compile_ok hcompile).code_eq

theorem exists_lookup {code : String} (hlisted : (t.get? code).isSome = true) :
    ∃ c, t.lookup code = .ok c := by
  obtain ⟨c, hc⟩ := Option.isSome_iff_exists.1 hlisted
  exact ⟨c, by rw [CurrencyTable.lookup, hc]⟩

/-- A request under just the code that a table lists is about the currency of that code exactly if
the code is in the form that is searched for, and then the code is not unknown.  In general it is
unknown exactly if its form is not listed; the failure then names the form. -/
theorem process_listed (h : CurrencyTable.ofConfig source = .ok t) {code : String}
    (hlisted : (t.get? code).isSome = true) :
    ((∃ c, t.lookup (normalizedCode code) = .ok c ∧ c.code = code) ↔ normalizedCode code = code) ∧
      (normalizedCode code = code → ∀ (s : Settings) (r : Request), r.currencyCode = code →
        ∀ named, process t s r ≠ .error (.unknownCurrency named)) ∧
      ∀ (s : Settings) (r : Request), r.currencyCode = code → ∀ named,
        process t s r = .error (.unknownCurrency named) ↔
          named = normalizedCode code ∧ t.get? (normalizedCode code) = none := by
  refine ⟨⟨?_, fun hform => ?_⟩, ?_, ?_⟩
  · rintro ⟨c, hlookup, hcode⟩
    exact (lookup_code h hlookup).symm.trans hcode
  · obtain ⟨c, hlookup⟩ := exists_lookup hlisted
    exact ⟨c, by rw [hform, hlookup], lookup_code h hlookup⟩
  · rintro hform s r rfl named hunknown
    have hnone := ((process_eq_unknown_iff h).1 hunknown).2
    rw [hform] at hnone
    rw [hnone] at hlisted
    cases hlisted
  · rintro s r rfl named
    exact process_eq_unknown_iff h

end

theorem process_listed_five :
    ∃ t, CurrencyTable.ofConfig (.ofList [("XTS", fiveConfig)]) = .ok t ∧
      (t.get? "XTS").isSome = true ∧
      ∀ named, process t {} { fiveRequest with currencyCode := "XTS" } ≠
        .error (.unknownCurrency named) := by
  have hcompiles : (CurrencyTable.ofConfig (.ofList [("XTS", fiveConfig)])).toOption.any
      (fun t => (t.get? "XTS").isSome) = true := by decide +kernel
  obtain ⟨t, ht, hlisted⟩ := (Option.any_eq_true _ _).1 hcompiles
  have htable := eq_ok_of_toOption ht
  have hcapitals : "XTS".toList.all (fun c => 'A' ≤ c ∧ c ≤ 'Z') = true := by decide +kernel
  have hcode : normalizedCode "XTS" = "XTS" := normalizedCode_of_capitals fun c hc =>
    of_decide_eq_true (List.all_eq_true.1 hcapitals c hc)
  obtain ⟨_, hknown, _⟩ := process_listed htable hlisted
  exact ⟨t, htable, hlisted, hknown hcode {} _ rfl⟩

/-- A listed code that is not in the form that is searched for: it is written small. -/
theorem listed_refused :
    ¬ ∀ (source : Config.Table) (t : CurrencyTable) (code : String),
        CurrencyTable.ofConfig source = .ok t → (t.get? code).isSome = true →
        ∀ (s : Settings) (r : Request), r.currencyCode = code →
          ∀ named, process t s r ≠ .error (.unknownCurrency named) := by
  intro hall
  have hcompiles : (CurrencyTable.ofConfig (.ofList [("xts", fiveConfig)])).toOption.any
      (fun t => (t.get? "xts").isSome && (t.get? "XTS").isNone) = true := by decide +kernel
  obtain ⟨t, ht, hcodes⟩ := (Option.any_eq_true _ _).1 hcompiles
  obtain ⟨hlisted, hnone⟩ := Bool.and_eq_true_iff.1 hcodes
  have htable := eq_ok_of_toOption ht
  have hform : normalizedCode "xts" = "XTS" := by decide +kernel
  refine hall _ t "xts" htable hlisted {} { fiveRequest with currencyCode := "xts" } rfl "XTS" ?_
  rw [process_eq_unknown_iff htable, hform]
  exact ⟨rfl, Option.isNone_iff_eq_none.1 hnone⟩

end Banknote.Recognition
