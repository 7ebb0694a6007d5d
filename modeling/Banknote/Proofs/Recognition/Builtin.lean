import Banknote.Proofs.Currency.Acceptance
import Banknote.Proofs.Recognition.Forms
import Banknote.Session

/-!
# Serial numbers on the built-in table

The built-in table compiles, every denomination of its two described currencies has a directive, and
no directive finds anything but a serial number of the form that its notes have.

The text of the configuration is read, and what is read is checked as a whole (`meets_builtin`);
what the check says about all texts is `KeepsTo.fits`.
-/

namespace Banknote

/-- The forms of the serial numbers of the built-in currencies, by code and denomination.  Dollar
notes have a letter and six digits whatever is recognized.  On a naira note of unknown denomination
there may stand what stands on some naira note. -/
def builtinForms : String → String → List SerialForm
  | "BSD", _ => [⟨1, 6⟩]
  | "NGN", "5" => [⟨2, 7⟩]
  | "NGN", "10" | "NGN", "20" | "NGN", "50" => [⟨2, 6⟩, ⟨2, 7⟩]
  | "NGN", "100" | "NGN", "200" => [⟨2, 7⟩, ⟨0, 6⟩]
  | "NGN", "500" | "NGN", "1000" => [⟨0, 6⟩]
  | "NGN", "" => [⟨2, 6⟩, ⟨2, 7⟩, ⟨0, 6⟩]
  | _, _ => []

namespace Config

/-- Whether nothing but the code of a currency is known. -/
def Currency.isBare (c : Currency) : Bool :=
  c.language.isNone && c.textMarks.isEmpty && c.denominations.keys.isEmpty && c.serial.isNone

/-- Whether every currency of a table compiles, and keeps to the forms of its code if it is
described. -/
def meets (forms : String → String → List SerialForm) (t : Table) : Bool :=
  t.entries.all fun e => (Banknote.Currency.compile e.1 e.2).toOption.isSome &&
    (e.2.isBare || e.2.keepsTo (forms e.1))

/-- A text is read character by character. -/
theorem tableOfText_ofList {text : String} {chars : List Char} (h : text = String.ofList chars) :
    tableOfText text = Json.readText tableOfDoc chars := by
  rw [tableOfText, h, String.toList_ofList]

set_option maxRecDepth 100000 in
theorem meets_builtin :
    (tableOfText builtinText).toOption.any (meets builtinForms) = true := by
  rw [@tableOfText_ofList builtinText _ rfl]
  decide +kernel

end Config

namespace CurrencyTable

/-- A table whose currencies compile is compiled. -/
theorem exists_ofConfig {forms : String → String → List SerialForm} {source : Config.Table}
    (h : Config.meets forms source = true) : ∃ t, ofConfig source = .ok t := by
  refine (Checks.table source).exists_ok_iff.2 fun r hr => ?_
  obtain ⟨⟨code, config⟩, he, hr⟩ := List.mem_flatMap.1 hr
  have hmeets := List.all_eq_true.1 h _ he
  rw [Bool.and_eq_true] at hmeets
  obtain ⟨c, hc⟩ := Option.isSome_iff_exists.1 hmeets.1
  exact (Checks.currency code config).exists_ok_iff.1 ⟨c, eq_ok_of_toOption hc⟩ r hr

end CurrencyTable

namespace Recognition

theorem bare_of_isBare {config : Config.Currency} (h : config.isBare = true) : Bare config := by
  simp only [Config.Currency.isBare, Bool.and_eq_true, Option.isNone_iff_eq_none,
    List.isEmpty_iff] at h
  obtain ⟨⟨⟨hlanguage, hmarks⟩, hdenominations⟩, hserial⟩ := h
  exact ⟨hlanguage, hmarks, hdenominations, hserial⟩

theorem keepsTo_of_meets {forms : String → String → List SerialForm} {source : Config.Table}
    (h : Config.meets forms source = true) : KeepsTo forms source := by
  intro code config hconfig
  have hmeets := List.all_eq_true.1 h _ (KeyMap.get?_eq_some_iff.1 hconfig)
  rw [Bool.and_eq_true, Bool.or_eq_true] at hmeets
  exact hmeets.2.imp_left bare_of_isBare

/-- On the built-in table no request fails for want of a directive, and a serial number that is
found has one of the forms of the denomination that is worked with. -/
theorem process_builtin :
    ∃ t, CurrencyTable.builtin = .ok t ∧ ∀ (s : Settings) (r : Request),
      (∀ name, process t s r ≠ .error (.directiveNotDefined name)) ∧
      (∀ name, process t s r ≠ .error (.unsupportedReference name)) ∧
      ∀ outcome, process t s r = .ok outcome → outcome.serial = "" ∨
        ∃ form ∈ builtinForms (normalizedCode r.currencyCode) outcome.denomination,
          form.Fits outcome.serial := by
  obtain ⟨source, hsource, hmeets⟩ := (Option.any_eq_true _ _).1 Config.meets_builtin
  obtain ⟨t, ht⟩ := CurrencyTable.exists_ofConfig hmeets
  have hkeeps := keepsTo_of_meets hmeets
  have hbuiltin : CurrencyTable.builtin = .ok t :=
    CurrencyTable.ofText_of_tableOfText (eq_ok_of_toOption hsource) ht
  refine ⟨t, hbuiltin, fun s r => ⟨?_, ?_, ?_⟩⟩
  · intro name hprocess
    have hanswer := (process_eq_iff ht).1 hprocess
    exact (hkeeps.failure_ne hanswer name).1 rfl
  · intro name hprocess
    have hanswer := (process_eq_iff ht).1 hprocess
    exact (hkeeps.failure_ne hanswer name).2 rfl
  · intro outcome hprocess
    exact hkeeps.fits ((process_eq_iff ht).1 hprocess)

end Recognition

end Banknote
