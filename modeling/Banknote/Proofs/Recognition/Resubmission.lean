import Banknote.Proofs.Recognition.Process

/-!
# A request that is sent again

A request that leaves its denomination open is answered like the same request with the denomination
that is recognized.

* The denomination.  `rule?_classify`: a denomination that is recognized is one of the currency's
  own, so that the request with it is admitted.
* The two requests.  `requested_resubmitted` and `process_resubmitted`: they are about the same
  currency and get the same answer.
* The answer.  `answer_of_classify` lists what is answered once a denomination was recognized, and
  `denomination_of_ok` says which denomination an outcome has.

`process_stable` puts these together.
-/

namespace Banknote

/-! ## The denomination -/

/-- A denomination that is recognized is found among those of the currency. -/
theorem Currency.rule?_classify {c : Currency} {tokens : List String}
    (h : c.classify tokens ≠ "") : (c.rule? (c.classify tokens)).isSome = true := by
  unfold classify at h ⊢
  cases hfind : c.denominations.find? (·.isMatch tokens) with
  | none =>
    rw [hfind] at h
    exact absurd rfl h
  | some r =>
    have hmem : r ∈ c.denominations := List.mem_of_find?_eq_some hfind
    rw [rule?, List.find?_isSome]
    exact ⟨r, hmem, beq_self_eq_true _⟩

/-- A currency of which a denomination was recognized is described. -/
theorem Currency.isDefined_of_classify {c : Currency} {tokens : List String}
    (h : c.classify tokens ≠ "") : c.isDefined = true := by
  have hne : c.denominations ≠ [] := by
    intro hnil
    rw [classify, hnil] at h
    exact h rfl
  simp [isDefined, hne]

namespace Recognition

variable {t : CurrencyTable} {s : Settings} {r : Request} {c : Currency}

/-! ## The two requests -/

/-- The denomination that is recognized can be given as well. -/
theorem requested_resubmitted (hlookup : t.lookup (normalizedCode r.currencyCode) = .ok c)
    (hempty : r.denomination = "") (hfound : c.classify r.tokens ≠ "") :
    requested t { r with denomination := c.classify r.tokens } = requested t r := by
  have hrule := Currency.rule?_classify hfound
  simp only [requested, hlookup, hempty, ← Option.not_isSome, hrule]
  simp

theorem workingDenomination_resubmitted (hempty : r.denomination = "")
    (hfound : c.classify r.tokens ≠ "") :
    workingDenomination c { r with denomination := c.classify r.tokens } =
      workingDenomination c r := by
  simp [workingDenomination, hempty, hfound]

theorem process_resubmitted (hlookup : t.lookup (normalizedCode r.currencyCode) = .ok c)
    (hempty : r.denomination = "") (hfound : c.classify r.tokens ≠ "") :
    process t s { r with denomination := c.classify r.tokens } = process t s r := by
  have hrequested := requested_resubmitted hlookup hempty hfound
  cases hr : requested t r with
  | error failure => rw [process_of_error hr, process_of_error (hrequested.trans hr)]
  | ok c' =>
    obtain rfl : c = c' := Except.ok.inj (hlookup.symm.trans (lookup_of_requested hr))
    rw [process_of_ok hr, process_of_ok (hrequested.trans hr),
      workingDenomination_resubmitted hempty hfound]

/-! ## The answer -/

theorem requested_of_classify (hlookup : t.lookup (normalizedCode r.currencyCode) = .ok c)
    (hempty : r.denomination = "") (hfound : c.classify r.tokens ≠ "") :
    requested t r = .ok c := by
  simp [requested, hlookup, hempty, Currency.isDefined_of_classify hfound]

/-- Once a denomination was recognized and the gates are passed, only the plan can be missing. -/
theorem answer_of_classify (hlookup : t.lookup (normalizedCode r.currencyCode) = .ok c)
    (hempty : r.denomination = "") (hfound : c.classify r.tokens ≠ "")
    (hmoney : s.isMoney r.labels = true) (hmarks : c.hasTextMarks r.tokens = true) :
    (∃ serial, process t s r = .ok ⟨c.classify r.tokens, serial⟩) ∨
      ∃ name, process t s r = .error (.directiveNotDefined name) ∨
        process t s r = .error (.unsupportedReference name) := by
  have hworks : workingDenomination c r = c.classify r.tokens := by
    simp [workingDenomination, hempty]
  rw [process_of_ok (requested_of_classify hlookup hempty hfound), if_neg (by simp [hmoney]),
    if_neg (by simp [hmarks]), hworks]
  cases c.serial with
  | none => exact .inr ⟨_, .inl rfl⟩
  | some tree =>
    dsimp only
    rcases tree.resolve_cases (some (c.classify r.tokens)) with
      ⟨plan, hplan, _⟩ | ⟨name, hmissing | hchained⟩
    · rw [hplan]
      exact .inl ⟨_, rfl⟩
    · rw [hmissing]
      exact .inr ⟨name, .inl rfl⟩
    · rw [hchained]
      exact .inr ⟨name, .inr rfl⟩

/-- An outcome has the denomination that was worked with. -/
theorem denomination_of_ok {outcome : Outcome} (h : process t s r = .ok outcome) :
    ∃ c, t.lookup (normalizedCode r.currencyCode) = .ok c ∧
      outcome.denomination = workingDenomination c r := by
  cases hr : requested t r with
  | error failure =>
    rw [process_of_error hr] at h
    cases h
  | ok c =>
    refine ⟨c, lookup_of_requested hr, ?_⟩
    rw [process_of_ok hr] at h
    split at h
    · cases h
    · split at h
      · cases h
      · split at h
        · cases h
        · obtain ⟨plan, _, rfl⟩ := map_eq_ok.1 h
          rfl

/-- A request without a denomination gets the answer of the request with the denomination that is
recognized, be it an outcome of that denomination or the failure to find a plan for it.  A request
that has an outcome gets the same outcome if it is sent again with the denomination of the
outcome. -/
theorem process_stable (t : CurrencyTable) (s : Settings) (r : Request) :
    (∀ c d, t.lookup (normalizedCode r.currencyCode) = .ok c → r.denomination = "" →
      c.classify r.tokens = d → d ≠ "" →
      process t s { r with denomination := d } = process t s r ∧
      (s.isMoney r.labels = true → c.hasTextMarks r.tokens = true →
        (∃ serial, process t s r = .ok ⟨d, serial⟩) ∨
          ∃ name, process t s r = .error (.directiveNotDefined name) ∨
            process t s r = .error (.unsupportedReference name))) ∧
      ∀ outcome, process t s r = .ok outcome →
        process t s { r with denomination := outcome.denomination } = .ok outcome := by
  constructor
  · rintro c _ hlookup hempty rfl hfound
    exact ⟨process_resubmitted hlookup hempty hfound, answer_of_classify hlookup hempty hfound⟩
  · intro outcome houtcome
    obtain ⟨c, hlookup, hdenomination⟩ := denomination_of_ok houtcome
    by_cases hempty : r.denomination = ""
    · have hworks : outcome.denomination = c.classify r.tokens := by
        simp [hdenomination, workingDenomination, hempty]
      by_cases hfound : c.classify r.tokens = ""
      · -- Nothing was recognized, so the request that is sent again is the same one.
        rw [hworks, hfound, ← hempty]
        exact houtcome
      · rw [hworks, process_resubmitted hlookup hempty hfound]
        exact houtcome
    · have hworks : outcome.denomination = r.denomination := by
        simp [hdenomination, workingDenomination, hempty]
      rw [hworks]
      exact houtcome

/-- A request in which the denomination is recognized. -/
def openRequest : Request where
  currencyCode := "XTS"
  tokens := ["bank", "five", "42"]
  labels := [⟨"money", half⟩]

theorem process_stable_five :
    ∃ t c, CurrencyTable.ofConfig (.ofList [("XTS", fiveConfig)]) = .ok t ∧
      t.lookup "XTS" = .ok c ∧ c.classify openRequest.tokens = "5" ∧
      process t {} openRequest = .ok ⟨"5", "42"⟩ ∧
      process t {} { openRequest with denomination := "5" } = process t {} openRequest ∧
      process t {} { openRequest with denomination := "5" } = .ok ⟨"5", "42"⟩ := by
  have hcompiles : (CurrencyTable.ofConfig (.ofList [("XTS", fiveConfig)])).toOption.map
      (fun t => (((t.lookup "XTS").toOption.map (·.classify openRequest.tokens)),
        (process t {} openRequest).toOption)) = some (some "5", some ⟨"5", "42"⟩) := by
    decide +kernel
  obtain ⟨t, ht, hanswers⟩ := Option.map_eq_some_iff.1 hcompiles
  obtain ⟨hclassify, hprocess⟩ := Prod.mk.inj hanswers
  obtain ⟨c, hc, hfive⟩ := Option.map_eq_some_iff.1 hclassify
  have hlookup := eq_ok_of_toOption hc
  have houtcome := eq_ok_of_toOption hprocess
  obtain ⟨hdetected, hsupplied⟩ := process_stable t {} openRequest
  have hcode : normalizedCode openRequest.currencyCode = "XTS" := by decide +kernel
  obtain ⟨hsame, _⟩ := hdetected c "5" (hcode ▸ hlookup) rfl hfive (by decide)
  exact ⟨t, c, eq_ok_of_toOption ht, hlookup, hfive, houtcome, hsame, hsupplied _ houtcome⟩

end Recognition

end Banknote
