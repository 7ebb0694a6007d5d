import Banknote.Proofs.Recognition.Classify

/-!
# More evidence

A rule that joins no tokens asks for each of its patterns that some token matches it, or some
suggestion for a token.  So it keeps its match when there is more to choose from.  There are three
groups of statements.

* Suggestions.  A trained model with more words and a greater depth suggests more
  (`suggest_subset`), because what is suggested is said by words and edits alone (`mem_suggest`);
  the places of the words and the index play no part.
* Rules.  `Strengthens` compares the fuzzy sections of two rules.  The stronger one expands tokens
  to more tokens (`Strengthens.expand_subset`), so its rule matches where the other one does
  (`isMatch_of_strengthens`).
* Denominations.  With more tokens the denominations that fit stay, and perhaps there are others, so
  the least of them can only become less (`classify_of_subset`).
-/

namespace Banknote

open Pattern (Matcher)
open Fuzzy (levenshtein)

/-! ## Suggestions -/

namespace Fuzzy.Model

theorem mem_words {m : Model} {v : String} : v ∈ m.words ↔ v.toList ∈ m.vocabulary := by
  rw [words, List.mem_map]
  constructor
  · rintro ⟨word, hword, rfl⟩
    rwa [String.toList_ofList, ← Array.mem_toList_iff]
  · intro hv
    exact ⟨v.toList, Array.mem_toList_iff.2 hv, String.ofList_toList⟩

/-- With more words and a greater depth more is suggested. -/
theorem suggest_subset {m m' : Model} (h : m.Filed) (h' : m'.Filed) (hwords : m.words ⊆ m'.words)
    (hdepth : m.depth ≤ m'.depth) (w : String) : m.suggest w ⊆ m'.suggest w := by
  intro v hv
  obtain ⟨hmem, hne, hle⟩ := (mem_suggest h).1 hv
  have hmem' : v.toList ∈ m'.vocabulary := mem_words.1 (hwords (mem_words.2 hmem))
  exact (mem_suggest h').2 ⟨hmem', hne, Nat.le_trans hle hdepth⟩

end Fuzzy.Model

/-! ## Rules -/

namespace DenominationRule

/-- The model of a rule, if it has one, is a trained one. -/
def Trained (r : DenominationRule) : Prop :=
  ∀ model, r.fuzzy = some model → ∃ vocabulary depth, model = .train vocabulary depth

/-- The fuzzy section of `r'` is at least as strong as that of `r`: it has the words of the other
one and its depth, and it ignores only what the other one ignores. -/
structure Strengthens (r r' : DenominationRule) : Prop where
  fuzzy : ∀ model, r.fuzzy = some model → ∃ model', r'.fuzzy = some model' ∧
    model.words ⊆ model'.words ∧ model.depth ≤ model'.depth
  fuzzyIgnore : r'.fuzzyIgnore ⊆ r.fuzzyIgnore

variable {r r' : DenominationRule}

theorem Trained.filed (h : r.Trained) {model : Fuzzy.Model} (hmodel : r.fuzzy = some model) :
    model.Filed := by
  obtain ⟨vocabulary, depth, rfl⟩ := h model hmodel
  exact Fuzzy.Model.filed_train vocabulary depth

theorem CompiledFrom.trained {key : String} {d : Config.Denomination} (h : r.CompiledFrom key d) :
    r.Trained := by
  intro model hmodel
  rw [h.fuzzy, Option.map_eq_some_iff] at hmodel
  obtain ⟨f, _, rfl⟩ := hmodel
  exact ⟨f.vocabulary, f.depth, rfl⟩

/-- The tokens themselves stay in an expansion. -/
theorem subset_expand (r : DenominationRule) (tokens : List String) : tokens ⊆ r.expand tokens := by
  intro token htoken
  rw [expand]
  split
  · exact htoken
  · exact List.mem_flatMap.2 ⟨token, htoken, List.mem_cons_self⟩

/-- The stronger section keeps the suggestions for a token, since what it ignores is ignored by the
other one as well. -/
theorem Strengthens.expandToken_subset (h : r.Strengthens r') {model model' : Fuzzy.Model}
    {token : String} (hsuggest : model.suggest token ⊆ model'.suggest token) :
    r.expandToken model token ⊆ r'.expandToken model' token := by
  refine List.cons_subset_cons token ?_
  by_cases hignores' : r'.fuzzyIgnore.any (·.isMatch token) = true
  · have hignores : r.fuzzyIgnore.any (·.isMatch token) = true := by
      obtain ⟨m, hm, hmatch⟩ := List.any_eq_true.1 hignores'
      exact List.any_eq_true.2 ⟨m, h.fuzzyIgnore hm, hmatch⟩
    rw [if_pos hignores]
    exact List.nil_subset _
  · rw [if_neg hignores']
    split
    · exact List.nil_subset _
    · exact hsuggest

/-- The stronger section expands tokens to more. -/
theorem Strengthens.expand_subset (h : r.Strengthens r') (htrained : r.Trained)
    (htrained' : r'.Trained) (tokens : List String) : r.expand tokens ⊆ r'.expand tokens := by
  cases hmodel : r.fuzzy with
  | none =>
    rw [expand, hmodel]
    exact r'.subset_expand tokens
  | some model =>
    obtain ⟨model', hmodel', hwords, hdepth⟩ := h.fuzzy model hmodel
    rw [expand, expand, hmodel, hmodel']
    intro v hv
    obtain ⟨token, htoken, hv⟩ := List.mem_flatMap.1 hv
    have hsuggest : model.suggest token ⊆ model'.suggest token :=
      Fuzzy.Model.suggest_subset (htrained.filed hmodel) (htrained'.filed hmodel') hwords hdepth
        token
    exact List.mem_flatMap.2 ⟨token, htoken, h.expandToken_subset hsuggest hv⟩

/-- Without joining, a rule that asks for no further pattern fits when there are more tokens. -/
theorem fits_of_subset (hjoin : r.joinMethod = .perToken) (hjoin' : r'.joinMethod = .perToken)
    (hpatterns : r'.patterns ⊆ r.patterns) {tokens tokens' : List String}
    (htokens : tokens ⊆ tokens') (hfits : r.fits tokens = true) : r'.fits tokens' = true := by
  simp only [fits, Token.join, hjoin, hjoin', JoinMethod.delimiter?, Option.map_none,
    List.all_eq_true, List.any_eq_true] at hfits ⊢
  intro p hp
  obtain ⟨token, htoken, hmatch⟩ := hfits p (hpatterns hp)
  exact ⟨token, htokens htoken, hmatch⟩

/-- Of two rules that join no tokens and have the same patterns, or the second one fewer of them,
the second one matches all tokens that the first one matches, if its fuzzy section is at least as
strong. -/
theorem isMatch_of_strengthens (htrained : r.Trained) (htrained' : r'.Trained)
    (hjoin : r.joinMethod = .perToken) (hjoin' : r'.joinMethod = .perToken)
    (hpatterns : r'.patterns ⊆ r.patterns) (h : r.Strengthens r') (tokens : List String)
    (hmatch : r.isMatch tokens = true) : r'.isMatch tokens = true :=
  fits_of_subset hjoin hjoin' hpatterns (h.expand_subset htrained htrained' tokens) hmatch

/-- A denomination with the pattern `five`, and words to correct tokens with. -/
def fives (f : Config.Fuzzy) : Config.Denomination where
  patterns := ["five"]
  fuzzy := some f

theorem fits_fives : (fives ⟨["Five"], 1⟩).Fits ["fivve"] := by
  intro p hp
  obtain rfl : p = Matcher.linear? "five" := List.mem_singleton.1 hp
  have hany : (Matcher.linear? "five").any (·.isMatch "five") = true := by decide +kernel
  have hsuggests : (fives ⟨["Five"], 1⟩).Suggests "fivve" "five" := by
    refine ⟨?_, ⟨["Five"], 1⟩, rfl, ⟨"Five", by decide, by decide +kernel⟩, by decide,
      by decide +kernel, by decide +kernel⟩
    rintro ⟨source, hsource, _⟩
    cases hsource
  exact ⟨"fivve", by decide, .inr ⟨"five", hsuggests, (Option.any_eq_true _ _).1 hany⟩⟩

/-- A rule that corrects one letter, and one that knows more words and corrects two. -/
theorem isMatch_of_strengthens_fives :
    ∃ r r', compile "XTS" "5" (fives ⟨["Five"], 1⟩) = .ok r ∧
      compile "XTS" "5" (fives ⟨["four", "five"], 2⟩) = .ok r' ∧ r.isMatch ["fivve"] = true ∧
        r'.isMatch ["fivve"] = true := by
  have hcompiles : (compile "XTS" "5" (fives ⟨["Five"], 1⟩)).toOption.isSome = true := by
    decide +kernel
  have hcompiles' : (compile "XTS" "5" (fives ⟨["four", "five"], 2⟩)).toOption.isSome = true := by
    decide +kernel
  obtain ⟨r, hr⟩ := Option.isSome_iff_exists.1 hcompiles
  obtain ⟨r', hr'⟩ := Option.isSome_iff_exists.1 hcompiles'
  have h := compile_ok (eq_ok_of_toOption hr)
  have h' := compile_ok (eq_ok_of_toOption hr')
  have hpatterns : r'.patterns = r.patterns :=
    (List.map_inj_right fun _ _ => Option.some.inj).1 (h'.patterns.trans h.patterns.symm)
  have hstrengthens : r.Strengthens r' := by
    have hignore : r'.fuzzyIgnore = [] := List.map_eq_nil_iff.1 h'.fuzzyIgnore
    refine ⟨fun model hmodel => ⟨.train ["four", "five"] 2, h'.fuzzy, ?_, ?_⟩, ?_⟩
    · obtain rfl := Option.some.inj (hmodel.symm.trans h.fuzzy)
      intro v hv
      rw [Fuzzy.Model.mem_words, Fuzzy.Model.mem_vocabulary_train] at hv ⊢
      obtain ⟨x, hx, hv, hne⟩ := hv
      obtain rfl := List.mem_singleton.1 hx
      exact ⟨"five", by decide, by rw [hv]; decide +kernel, hne⟩
    · obtain rfl := Option.some.inj (hmodel.symm.trans h.fuzzy)
      rw [Fuzzy.Model.depth_train, Fuzzy.Model.depth_train]
      decide
    · rw [hignore]
      exact List.nil_subset _
  have hmatch : r.isMatch ["fivve"] = true := (h.isMatch_iff_fits _).2 fits_fives
  exact ⟨r, r', eq_ok_of_toOption hr, eq_ok_of_toOption hr', hmatch,
    isMatch_of_strengthens h.trained h'.trained h.joinMethod h'.joinMethod
      (hpatterns ▸ List.Subset.refl _) hstrengthens _ hmatch⟩

end DenominationRule

/-! ## Denominations -/

namespace Currency

variable {code : String} {config : Config.Currency} {c : Currency}

/-- No rule of the currency joins tokens. -/
def JoinsNothing (c : Currency) : Prop := ∀ r ∈ c.denominations, r.joinMethod = .perToken

/-- Without joining, what fits some tokens fits more tokens. -/
theorem CompiledFrom.fits_of_subset (h : c.CompiledFrom code config) (hjoin : c.JoinsNothing)
    {key : String} {d : Config.Denomination} (hd : config.denominations.get? key = some d)
    {tokens tokens' : List String} (htokens : tokens ⊆ tokens') (hfits : d.Fits tokens) :
    d.Fits tokens' := by
  obtain ⟨r, hr, _, hrule⟩ := h.exists_rule hd
  have hmethod : d.joinMethod = .perToken := hrule.joinMethod.symm.trans (hjoin r hr)
  rw [Config.Denomination.Fits, hmethod] at hfits ⊢
  intro p hp
  obtain ⟨token, htoken, hfinds⟩ := hfits p hp
  exact ⟨token, htokens htoken, hfinds⟩

/-- With more tokens there still is a denomination, and it is the same one or comes before. -/
theorem CompiledFrom.keyPrecedes_of_subset (h : c.CompiledFrom code config)
    (hjoin : c.JoinsNothing) {tokens tokens' : List String} (htokens : tokens ⊆ tokens')
    (hne : c.classify tokens ≠ "") :
    c.classify tokens' ∈ config.denominations.keys ∧
      KeyPrecedes (c.classify tokens') (c.classify tokens) := by
  rcases h.classify_cases tokens with ⟨hempty, _⟩ | ⟨d, hd, hfits, _⟩
  · exact absurd hempty hne
  · have hfits' : d.Fits tokens' := h.fits_of_subset hjoin hd htokens hfits
    rcases h.classify_cases tokens' with ⟨_, hnone⟩ | ⟨d', hd', _, hleast⟩
    · exact absurd hfits' (hnone _ d hd)
    · exact ⟨List.mem_map_of_mem (KeyMap.get?_eq_some_iff.1 hd'), hleast _ d hd hfits'⟩

/-- The same tokens in another order, or repeated, have the same denomination. -/
theorem CompiledFrom.classify_congr (h : c.CompiledFrom code config) (hjoin : c.JoinsNothing)
    {tokens tokens' : List String} (htokens : ∀ token, token ∈ tokens ↔ token ∈ tokens') :
    c.classify tokens = c.classify tokens' := by
  have hsub : tokens ⊆ tokens' := fun token => (htokens token).1
  have hsub' : tokens' ⊆ tokens := fun token => (htokens token).2
  by_cases hne : c.classify tokens = ""
  · by_cases hne' : c.classify tokens' = ""
    · exact hne.trans hne'.symm
    · obtain ⟨hkey, _⟩ := h.keyPrecedes_of_subset hjoin hsub' hne'
      rw [hne] at hkey
      exact absurd hkey h.key_ne_empty
  · obtain ⟨hkey', hprecedes⟩ := h.keyPrecedes_of_subset hjoin hsub hne
    have hne' : c.classify tokens' ≠ "" := fun hempty => h.key_ne_empty (hempty ▸ hkey')
    obtain ⟨_, hprecedes'⟩ := h.keyPrecedes_of_subset hjoin hsub' hne'
    exact hprecedes'.antisymm hprecedes

/-- In a currency that joins no tokens, more tokens never lose a denomination: if one is recognized
in some tokens, one is recognized in all lists that hold these tokens, and its value is no greater.
The order of the tokens and their repetition make no difference. -/
theorem classify_of_subset (h : Currency.compile code config = .ok c) (hjoin : c.JoinsNothing) :
    (∀ tokens tokens' : List String, tokens ⊆ tokens' →
        c.classify tokens ∈ config.denominations.keys →
          c.classify tokens' ∈ config.denominations.keys ∧
            ∃ n n', naturalBelow? (1 <<< 64) (c.classify tokens).toList = some n ∧
              naturalBelow? (1 <<< 64) (c.classify tokens').toList = some n' ∧ n' ≤ n) ∧
      ∀ tokens tokens' : List String, (∀ token, token ∈ tokens ↔ token ∈ tokens') →
        c.classify tokens = c.classify tokens' := by
  have hc := Currency.compile_ok h
  refine ⟨fun tokens tokens' htokens hkey => ?_, fun tokens tokens' htokens => ?_⟩
  · have hne : c.classify tokens ≠ "" := fun hempty => hc.key_ne_empty (hempty ▸ hkey)
    obtain ⟨hkey', n', n, hn', hn, hle⟩ := hc.keyPrecedes_of_subset hjoin htokens hne
    exact ⟨hkey', n, n', hn, hn', by omega⟩
  · exact hc.classify_congr hjoin htokens

/-- Two denominations, of which the greater one is recognized in garbled words as well. -/
def oneAndFive : Config.Currency where
  denominations := .ofList
    [("1", { patterns := ["one"] }), ("5", DenominationRule.fives ⟨["Five"], 1⟩)]

theorem classify_of_subset_one_and_five :
    ∃ c, Currency.compile "XTS" oneAndFive = .ok c ∧ c.JoinsNothing ∧
      c.classify ["fivve"] ∈ oneAndFive.denominations.keys ∧
        c.classify ["one", "fivve", "fivve"] ∈ oneAndFive.denominations.keys := by
  have hcompiles : (Currency.compile "XTS" oneAndFive).toOption.isSome = true := by decide +kernel
  obtain ⟨c, hok⟩ := Option.isSome_iff_exists.1 hcompiles
  have hcompile := eq_ok_of_toOption hok
  have hc := Currency.compile_ok hcompile
  have hjoin : c.JoinsNothing := by
    intro r hr
    obtain ⟨d, hd, hrule⟩ := hc.exists_denomination hr
    have hall : ∀ e ∈ oneAndFive.denominations.entries, e.2.joinMethod = .perToken := by
      decide +kernel
    rw [hrule.joinMethod]
    exact hall (r.denomination, d) (KeyMap.get?_eq_some_iff.1 hd)
  have hkey : c.classify ["fivve"] ∈ oneAndFive.denominations.keys := by
    rcases hc.classify_cases ["fivve"] with ⟨_, hnone⟩ | ⟨d, hd, _, _⟩
    · exact absurd DenominationRule.fits_fives (hnone "5" _ rfl)
    · exact List.mem_map_of_mem (KeyMap.get?_eq_some_iff.1 hd)
  obtain ⟨hsubset, _⟩ := classify_of_subset hcompile hjoin
  obtain ⟨hkey', _⟩ := hsubset ["fivve"] ["one", "fivve", "fivve"] (by decide) hkey
  exact ⟨c, hcompile, hjoin, hkey, hkey'⟩

end Currency

end Banknote
