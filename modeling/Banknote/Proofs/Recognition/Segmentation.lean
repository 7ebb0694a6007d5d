import Banknote.Proofs.Recognition.Process
import Banknote.Proofs.Session
import Banknote.Proofs.Token
import Mathlib.Data.List.Find

/-!
# How a text is cut into words

Where tokens are joined without a delimiter, the words of a text are put together to the text without
its blanks, and so it does not matter how the text was cut.

* Words.  `SameLetters` relates texts whose words join to the same.
* Parts.  `SerialPlan.extract_ofTexts`, `DenominationRule.isMatch_ofTexts` and
  `Currency.classify_ofTexts`: what joins without a delimiter only sees the letters.
* Requests.  `Session.processTexts_resegmented`.
-/

namespace Banknote

open Recognition (Request Settings normalizedCode process requested workingDenomination)

/-! ## Words -/

namespace Token

/-- Texts that have the same letters in the same order, wherever their blanks are and wherever one
text ends and the next one starts. -/
def SameLetters (texts texts' : List String) : Prop :=
  Text.dropBlanks (texts.flatMap String.toList) = Text.dropBlanks (texts'.flatMap String.toList)

theorem SameLetters.concat_eq {texts texts' : List String} (h : SameLetters texts texts') :
    String.intercalate "" (ofTexts texts) = String.intercalate "" (ofTexts texts') := by
  rw [← String.toList_inj, toList_concat_ofTexts, toList_concat_ofTexts]
  exact h

end Token

open Token (SameLetters)

variable {texts texts' : List String}

/-! ## Parts -/

/-- A plan that joins without a delimiter finds the same serial number. -/
theorem SerialPlan.extract_ofTexts {p : SerialPlan} (hp : p.joinMethod = .concatenated)
    (h : SameLetters texts texts') :
    p.extract (Token.ofTexts texts) = p.extract (Token.ofTexts texts') := by
  simp only [extract, Token.join, hp, JoinMethod.delimiter?, Option.map_some, h.concat_eq]

/-- A rule that joins without a delimiter and corrects no token fits the same notes. -/
theorem DenominationRule.isMatch_ofTexts {r : DenominationRule}
    (hr : r.joinMethod = .concatenated) (hfuzzy : r.fuzzy = none) (h : SameLetters texts texts') :
    r.isMatch (Token.ofTexts texts) = r.isMatch (Token.ofTexts texts') := by
  simp only [isMatch, fits, expand, hfuzzy, Token.join, hr, JoinMethod.delimiter?, Option.map_some,
    h.concat_eq]

theorem Currency.classify_ofTexts {c : Currency}
    (hc : ∀ r ∈ c.denominations, r.joinMethod = .concatenated ∧ r.fuzzy = none)
    (h : SameLetters texts texts') :
    c.classify (Token.ofTexts texts) = c.classify (Token.ofTexts texts') := by
  have hfind : c.denominations.find? (·.isMatch (Token.ofTexts texts)) =
      c.denominations.find? (·.isMatch (Token.ofTexts texts')) := by
    refine List.find?_congr fun r hr => ?_
    obtain ⟨hjoin, hfuzzy⟩ := hc r hr
    exact DenominationRule.isMatch_ofTexts hjoin hfuzzy h
  rw [classify, classify, hfind]

/-! ## Requests -/

/-- The plan for a denomination, if there is one, joins without a delimiter. -/
def Currency.ConcatenatesFor (c : Currency) (denomination : String) : Prop :=
  ∀ tree plan, c.serial = some tree → tree.resolve (some denomination) = .ok plan →
    plan.joinMethod = .concatenated

/-- All that is known about a currency joins without a delimiter, and no token is corrected. -/
structure Currency.Concatenates (c : Currency) : Prop where
  rule : ∀ r ∈ c.denominations, r.joinMethod = .concatenated ∧ r.fuzzy = none
  root : ∀ tree, c.serial = some tree → tree.root.joinMethod = .concatenated
  entry : ∀ tree key plan, c.serial = some tree →
    tree.entries.get? key = some (.concrete plan) → plan.joinMethod = .concatenated

theorem Currency.Concatenates.concatenatesFor {c : Currency} (h : c.Concatenates)
    (denomination : String) : c.ConcatenatesFor denomination := by
  intro tree plan htree hresolve
  rcases tree.resolve_cases (some denomination) with
    ⟨plan', hplan, hfrom⟩ | ⟨name, hmissing | hchained⟩
  · obtain rfl : plan' = plan := Except.ok.inj (hplan.symm.trans hresolve)
    rcases hfrom with rfl | ⟨key, hentry⟩
    · exact h.root tree htree
    · exact h.entry tree key plan' htree hentry
  · rw [hmissing] at hresolve
    cases hresolve
  · rw [hchained] at hresolve
    cases hresolve

/-- Texts with the same letters get the same answer if the same denomination is worked with and the
plan for it joins without a delimiter. -/
theorem Recognition.process_ofTexts {t : CurrencyTable} {s : Settings} {r : Request} {c : Currency}
    (hlookup : t.lookup (normalizedCode r.currencyCode) = .ok c) (hmarks : c.textMarks = [])
    (hworks : workingDenomination c { r with tokens := Token.ofTexts texts } =
      workingDenomination c { r with tokens := Token.ofTexts texts' })
    (hplan : c.ConcatenatesFor (workingDenomination c { r with tokens := Token.ofTexts texts' }))
    (h : SameLetters texts texts') :
    process t s { r with tokens := Token.ofTexts texts } =
      process t s { r with tokens := Token.ofTexts texts' } := by
  -- Admission looks at the code and the denomination, not at the tokens.
  have hrequested : ∀ tokens, requested t { r with tokens } = requested t r := fun _ => rfl
  have hpass : ∀ tokens, c.hasTextMarks tokens = true := fun tokens => by
    simp [Currency.hasTextMarks, hmarks]
  cases hr : requested t r with
  | error failure =>
    rw [process_of_error ((hrequested _).trans hr), process_of_error ((hrequested _).trans hr)]
  | ok c' =>
    obtain rfl : c = c' := Except.ok.inj (hlookup.symm.trans (lookup_of_requested hr))
    rw [process_of_ok ((hrequested _).trans hr), process_of_ok ((hrequested _).trans hr), hworks]
    dsimp only
    rw [hpass, hpass]
    cases htree : c.serial with
    | none => rfl
    | some tree =>
      dsimp only
      cases hresolve : tree.resolve (some (workingDenomination c
          { r with tokens := Token.ofTexts texts' })) with
      | error failure => rfl
      | ok plan =>
        rw [Except.map, Except.map, SerialPlan.extract_ofTexts (hplan tree plan htree hresolve) h]

namespace Session

/-- A currency without text marks is given.  If the denomination is given and the plan for it joins
without a delimiter, then raw texts with the same letters get the same answer.  If no denomination is
given, they do so provided that all that is known about the currency joins without a delimiter and
no token is corrected. -/
theorem processTexts_resegmented {s : Session} {r : Request} {c : Currency}
    (hlookup : s.table.lookup (normalizedCode r.currencyCode) = .ok c) (hmarks : c.textMarks = [])
    (h : SameLetters texts texts') :
    (r.denomination ≠ "" → c.ConcatenatesFor r.denomination →
        (s.step (.processTexts { r with tokens := texts })).1 =
          (s.step (.processTexts { r with tokens := texts' })).1) ∧
      (r.denomination = "" → c.Concatenates →
        (s.step (.processTexts { r with tokens := texts })).1 =
          (s.step (.processTexts { r with tokens := texts' })).1) := by
  constructor
  · intro hgiven hplan
    have hworks : ∀ tokens, workingDenomination c { r with tokens } = r.denomination :=
      fun tokens => by simp [workingDenomination, hgiven]
    refine congrArg (Except.map Answer.outcome) (Recognition.process_ofTexts hlookup hmarks ?_ ?_ h)
    · rw [hworks, hworks]
    · rw [hworks]
      exact hplan
  · intro hopen hc
    refine congrArg (Except.map Answer.outcome)
      (Recognition.process_ofTexts hlookup hmarks ?_ (hc.concatenatesFor _) h)
    simp only [workingDenomination, hopen]
    exact Currency.classify_ofTexts hc.rule h

/-- A currency of which all joins without a delimiter. -/
def joinedConfig : Config.Currency where
  denominations := .ofList [("5", { patterns := ["five"], joinMethod := .concatenated })]
  serial := some ⟨{ pattern := some "[A-Z]+[0-9]+", joinMethod := .concatenated }, .empty⟩

/-- The raw texts of a note. -/
def noteTexts : List String := ["five", "AB 1", "23"]

/-- The raw texts of the same note, cut inside the words, at their ends and between lines. -/
def otherTexts : List String := ["fi", "", "\u2003ve\nA", "B123"]

/-- A request with raw texts in which the denomination is recognized. -/
def textRequest (texts : List String) : Request where
  currencyCode := "XTS"
  tokens := texts
  labels := [⟨"money", Recognition.half⟩]

theorem processTexts_resegmented_five :
    ∃ (s : Session) (c : Currency), s.table.lookup "XTS" = .ok c ∧ c.textMarks = [] ∧
      c.Concatenates ∧ SameLetters otherTexts noteTexts ∧
      (s.step (.processTexts (textRequest noteTexts))).1 = .ok (.outcome ⟨"5", "AB123"⟩) ∧
      (s.step (.processTexts (textRequest otherTexts))).1 = .ok (.outcome ⟨"5", "AB123"⟩) ∧
      (s.step (.processTexts { textRequest otherTexts with denomination := "5" })).1 =
        (s.step (.processTexts { textRequest noteTexts with denomination := "5" })).1 := by
  have hrun : (CurrencyTable.ofConfig (.ofList [("XTS", joinedConfig)])).toOption.bind (fun t =>
      (t.lookup "XTS").toOption.map fun c => (c.textMarks.isEmpty,
        c.denominations.all (fun r => r.joinMethod = .concatenated && r.fuzzy.isNone),
        c.serial.map (fun tree => (tree.root.joinMethod, tree.entries.entries.isEmpty)),
        (process t {} { textRequest [] with
          tokens := Token.ofTexts noteTexts }).toOption)) =
      some (true, true, some (.concatenated, true), some ⟨"5", "AB123"⟩) := by decide +kernel
  obtain ⟨t, _, ht⟩ := Option.bind_eq_some_iff.1 hrun
  obtain ⟨c, hc, hfacts⟩ := Option.map_eq_some_iff.1 ht
  simp only [Prod.mk.injEq] at hfacts
  obtain ⟨hmarks, hrules, hserial, houtcome⟩ := hfacts
  obtain ⟨tree, htree, hroot⟩ := Option.map_eq_some_iff.1 hserial
  obtain ⟨hroot, hentries⟩ := Prod.mk.inj hroot
  have hlookup := eq_ok_of_toOption hc
  have hnoMarks := List.isEmpty_iff.1 hmarks
  have hconcatenates : c.Concatenates := by
    refine ⟨by simpa using hrules, fun tree' htree' => ?_, fun tree' key plan htree' hentry => ?_⟩
    · obtain rfl : tree = tree' := Option.some.inj (htree.symm.trans htree')
      exact hroot
    · obtain rfl : tree = tree' := Option.some.inj (htree.symm.trans htree')
      have hmem := KeyMap.get?_eq_some_iff.1 hentry
      rw [List.isEmpty_iff.1 hentries] at hmem
      cases hmem
  have hletters : SameLetters otherTexts noteTexts := by
    unfold SameLetters
    decide +kernel
  have hfirst : ((ofTable {} t).step (.processTexts (textRequest noteTexts))).1 =
      .ok (.outcome ⟨"5", "AB123"⟩) :=
    congrArg (Except.map Answer.outcome) (eq_ok_of_toOption houtcome)
  have hopen := (processTexts_resegmented (s := ofTable {} t) (r := textRequest []) hlookup hnoMarks
    hletters).2 rfl hconcatenates
  have hgiven := (processTexts_resegmented (s := ofTable {} t)
    (r := { textRequest [] with denomination := "5" }) hlookup hnoMarks hletters).1 (by decide)
    (hconcatenates.concatenatesFor "5")
  exact ⟨ofTable {} t, c, hlookup, hnoMarks, hconcatenates, hletters, hfirst,
    hopen.trans hfirst, hgiven⟩

end Session

end Banknote
