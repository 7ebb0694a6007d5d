import Banknote.Proofs.Currency.Acceptance
import Banknote.Proofs.Recognition.Process
import Banknote.Proofs.Session

/-!
# Currencies do not depend on one another

What a table knows about a code comes from the configuration of that code alone.

* Loading.  `exists_ofConfig_iff_alone`: a table is compiled exactly if each of its currencies is
  compiled as a table of its own.
* Look-ups.  `get?_ofConfig` finds under a code what its configuration is compiled to.
* Answers.  `process_congr_get?` and `Session.step_congr_get?`: a request and a question about a code
  are answered from what is known about that code.

`CurrencyTable.currency_isolated` puts these together.
-/

namespace Banknote

open Recognition (Request Settings normalizedCode process requested)

/-! ## Loading -/

namespace Config

/-- The configuration of a single currency. -/
def alone (code : String) (config : Currency) : Table := KeyMap.empty.insert code config

theorem get?_alone_eq_some_iff {code code' : String} {config config' : Currency} :
    (alone code config).get? code' = some config' ↔ code' = code ∧ config' = config := by
  by_cases hcode : code' = code
  · subst hcode
    rw [alone, KeyMap.get?_insert_self, Option.some.injEq, and_iff_right rfl]
    exact eq_comm
  · rw [alone, KeyMap.get?_insert_of_ne _ _ hcode]
    simp [hcode, KeyMap.get?, KeyMap.empty]

end Config

namespace CurrencyTable

variable {source : Config.Table} {t : CurrencyTable}

theorem exists_ofConfig_iff (source : Config.Table) :
    (∃ t, ofConfig source = .ok t) ↔
      ∀ code config, source.get? code = some config → config.Acceptable := by
  rw [(Checks.table source).exists_ok_iff, Config.Table.acceptable_iff]

/-- Whether a currency is compiled as a table of its own does not depend on its code. -/
theorem exists_ofConfig_alone_iff (code : String) (config : Config.Currency) :
    (∃ t, ofConfig (Config.alone code config) = .ok t) ↔ config.Acceptable := by
  rw [exists_ofConfig_iff]
  constructor
  · intro h
    exact h code config (Config.get?_alone_eq_some_iff.2 ⟨rfl, rfl⟩)
  · intro h code' config' hget
    rw [(Config.get?_alone_eq_some_iff.1 hget).2]
    exact h

theorem exists_ofConfig_iff_alone (source : Config.Table) :
    (∃ t, ofConfig source = .ok t) ↔
      ∀ code config, source.get? code = some config →
        ∃ t, ofConfig (Config.alone code config) = .ok t := by
  simp only [exists_ofConfig_alone_iff, exists_ofConfig_iff]

/-! ## Look-ups -/

/-- A compiled table has under each code what the configuration of that code is compiled to. -/
theorem get?_ofConfig (h : ofConfig source = .ok t) (code : String) :
    t.get? code =
      (source.get? code).bind fun config => (Currency.compile code config).toOption := by
  have htraverse := (ofConfig_ok h).1
  cases hcode : source.get? code with
  | none => exact KeyMap.get?_traverse_none htraverse hcode
  | some config =>
    obtain ⟨c, hc, hget⟩ := KeyMap.get?_traverse_some htraverse hcode
    rw [get?, hget, Option.bind_some, hc]
    rfl

theorem get?_congr {source' : Config.Table} {t' : CurrencyTable} (h : ofConfig source = .ok t)
    (h' : ofConfig source' = .ok t') {code : String} (hcode : source.get? code = source'.get? code) :
    t.get? code = t'.get? code := by
  rw [get?_ofConfig h, get?_ofConfig h', hcode]

/-- A currency is the same in a table and in a table of its own. -/
theorem exists_alone (h : ofConfig source = .ok t) {code : String} {config : Config.Currency}
    (hcode : source.get? code = some config) :
    ∃ alone c, ofConfig (Config.alone code config) = .ok alone ∧ alone.get? code = some c ∧
      t.get? code = some c := by
  obtain ⟨alone, halone⟩ := (exists_ofConfig_iff_alone source).1 ⟨t, h⟩ code config hcode
  have hsingle : (Config.alone code config).get? code = some config :=
    Config.get?_alone_eq_some_iff.2 ⟨rfl, rfl⟩
  obtain ⟨c, _, hc⟩ := KeyMap.get?_traverse_some (ofConfig_ok halone).1 hsingle
  have hget := get?_congr h halone (hcode.trans hsingle.symm)
  exact ⟨alone, c, halone, hc, hget.trans hc⟩

end CurrencyTable

/-! ## Answers -/

/-- The code of the currency that a step asks about, if it asks about a currency of the current
table. -/
def Step.code? : Step → Option String
  | process request | processTexts request => some (normalizedCode request.currencyCode)
  | classify code _ | expand code _ _ | ruleMatches code _ _ | resolve code _ | extract code _ _
  | hasTextMarks code _ | isValidCode code | isValidDenomination code _ | lookup code
  | language code | denominations code | textMarks code => some code
  | _ => none

/-- A request is answered from what is known about its code. -/
theorem Recognition.process_congr_get? {t t' : CurrencyTable} {code : String}
    (hget : t.get? code = t'.get? code) (s : Settings) {r : Request}
    (hcode : normalizedCode r.currencyCode = code) : process t s r = process t' s r := by
  subst hcode
  simp only [process, requested, CurrencyTable.lookup, hget]

/-- A question about a code is answered from what is known about that code. -/
theorem Session.step_congr_get? {s s' : Session} (hsettings : s.settings = s'.settings)
    {st : Step} {code : String} (hcode : st.code? = some code)
    (hget : s.table.get? code = s'.table.get? code) : (s.step st).1 = (s'.step st).1 := by
  cases st with
  | process request | processTexts request =>
    have hrequest := Option.some.inj hcode
    simp only [step, answer, hsettings]
    exact congrArg _ (Recognition.process_congr_get? hget _ hrequest)
  | isMoney | defined | codes | replace | snapshot | snapshotCodes | snapshotClassify | restore
  | write | save | load => cases hcode
  | _ =>
    cases hcode
    simp only [step, answer, rule, CurrencyTable.lookup, hget]

namespace CurrencyTable

/-- A table is compiled exactly if each of its currencies is compiled as a table of its own, and then
it knows about each code what that table knows.  Two tables whose configurations agree on a code
answer requests and questions about that code alike, whatever their other codes are. -/
theorem currency_isolated (source : Config.Table) :
    ((∃ t, ofConfig source = .ok t) ↔
        ∀ code config, source.get? code = some config →
          ∃ t, ofConfig (Config.alone code config) = .ok t) ∧
      ∀ t, ofConfig source = .ok t →
        (∀ code config, source.get? code = some config →
          ∃ alone c, ofConfig (Config.alone code config) = .ok alone ∧ alone.get? code = some c ∧
            t.get? code = some c) ∧
        ∀ source' t' code, ofConfig source' = .ok t' → source.get? code = source'.get? code →
          t.get? code = t'.get? code ∧
          (∀ (s : Settings) (r : Request), normalizedCode r.currencyCode = code →
            process t s r = process t' s r) ∧
          ∀ (s : Settings) (st : Step), st.code? = some code →
            ((Session.ofTable s t).step st).1 = ((Session.ofTable s t').step st).1 := by
  refine ⟨exists_ofConfig_iff_alone source, fun t h => ⟨fun _ _ => exists_alone h, ?_⟩⟩
  intro source' t' code h' hcode
  have hget := get?_congr h h' hcode
  refine ⟨hget, fun s r hr => Recognition.process_congr_get? hget s hr, ?_⟩
  intro s st hst
  have hsettings : (Session.ofTable s t).settings = (Session.ofTable s t').settings := rfl
  exact Session.step_congr_get? hsettings hst hget

/-- Two tables of which one knows another currency besides. -/
theorem currency_isolated_five :
    ∃ t t', ofConfig (Config.alone "XTS" Recognition.fiveConfig) = .ok t ∧
      ofConfig ((Config.alone "XTS" Recognition.fiveConfig).insert "XXX" Currency.twoFives) =
        .ok t' ∧
      t.get? "XTS" = t'.get? "XTS" ∧
      process t {} Recognition.fiveRequest = process t' {} Recognition.fiveRequest ∧
      ((Session.ofTable {} t).step (.classify "XTS" ["five"])).1 =
        ((Session.ofTable {} t').step (.classify "XTS" ["five"])).1 := by
  have hcompiles : (ofConfig (Config.alone "XTS" Recognition.fiveConfig)).toOption.isSome =
      true := by decide +kernel
  have hcompiles' : (ofConfig ((Config.alone "XTS" Recognition.fiveConfig).insert "XXX"
      Currency.twoFives)).toOption.isSome = true := by decide +kernel
  obtain ⟨t, ht⟩ := Option.isSome_iff_exists.1 hcompiles
  obtain ⟨t', ht'⟩ := Option.isSome_iff_exists.1 hcompiles'
  have htable := eq_ok_of_toOption ht
  have htable' := eq_ok_of_toOption ht'
  have hcode : (Config.alone "XTS" Recognition.fiveConfig).get? "XTS" =
      ((Config.alone "XTS" Recognition.fiveConfig).insert "XXX" Currency.twoFives).get? "XTS" :=
    (KeyMap.get?_insert_of_ne _ _ (by decide)).symm
  obtain ⟨_, hisolated⟩ := (currency_isolated _).2 t htable
  obtain ⟨hget, hprocess, hstep⟩ := hisolated _ t' "XTS" htable' hcode
  exact ⟨t, t', htable, htable', hget, hprocess {} _ (by decide +kernel), hstep {} _ rfl⟩

end CurrencyTable

end Banknote
