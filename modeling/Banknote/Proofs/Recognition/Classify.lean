import Banknote.Proofs.Currency.Compile
import Banknote.Proofs.Fuzzy.Suggest
import Banknote.Recognition.Classify

/-!
# The denomination that is recognized

What it means that a denomination fits the tokens of a note is said here about its configuration
(`Config.Denomination.Fits`), without a model that suggests words and without compiled rules.
`isMatch_iff_fits` says that this is what a compiled rule decides.

`classify_eq_least` says that the denomination recognized is the least one that fits.  It rests on
the order of the rules (`denominations_ordered`): the sort by value is stable, so of two rules of one
value the one with the smaller key comes first.
-/

namespace Banknote

open Pattern (Matcher)
open Fuzzy (levenshtein)

/-! ## What fits -/

/-- A pattern compiles and matches a text. -/
def Finds (p : Option Matcher) (text : String) : Prop := ∃ m, p = some m ∧ m.isMatch text = true

namespace Config.Denomination

/-- A pattern of the ignore list matches a token. -/
def Ignores (d : Config.Denomination) (token : String) : Prop :=
  ∃ source ∈ d.fuzzyIgnore, Finds (Matcher.linear? source) token

/-- A word of the vocabulary is suggested for a token: it differs from the token by some edits, but
not by too many, all in lower case. -/
def Suggests (d : Config.Denomination) (token v : String) : Prop :=
  ¬ d.Ignores token ∧ ∃ f, d.fuzzy = some f ∧
    (∃ x ∈ f.vocabulary, v.toList = Text.lower x.toList) ∧ v ≠ "" ∧
      v.toList ≠ Text.lower token.toList ∧ levenshtein v.toList (Text.lower token.toList) ≤ f.depth

/-- Each token followed by its suggestions, in ascending order. -/
inductive Expands (d : Config.Denomination) : List String → List String → Prop
  | nil : Expands d [] []
  | cons {token : String} {suggestions tokens expanded : List String}
    (hascending : suggestions.Pairwise (· < ·))
    (hmem : ∀ v, v ∈ suggestions ↔ d.Suggests token v)
    (hrest : Expands d tokens expanded) :
    Expands d (token :: tokens) (token :: suggestions ++ expanded)

/-- Every pattern matches some token or some suggestion for one. -/
def FitsTokens (d : Config.Denomination) (tokens : List String) : Prop :=
  ∀ p ∈ d.matchers, ∃ token ∈ tokens, Finds p token ∨ ∃ v, d.Suggests token v ∧ Finds p v

/-- The tokens and suggestions, joined, are not empty, and every pattern matches them. -/
def FitsJoined (d : Config.Denomination) (delimiter : String) (tokens : List String) : Prop :=
  ∃ expanded, d.Expands tokens expanded ∧ String.intercalate delimiter expanded ≠ "" ∧
    ∀ p ∈ d.matchers, Finds p (String.intercalate delimiter expanded)

/-- The denomination fits the tokens of a note. -/
def Fits (d : Config.Denomination) (tokens : List String) : Prop :=
  match d.joinMethod with
  | .perToken => d.FitsTokens tokens
  | .spaced => d.FitsJoined " " tokens
  | .concatenated => d.FitsJoined "" tokens

/-! ## Expansions -/

/-- An expansion holds the tokens and the suggestions for them. -/
theorem Expands.mem_iff {d : Config.Denomination} {tokens expanded : List String}
    (h : d.Expands tokens expanded) {v : String} :
    v ∈ expanded ↔ ∃ token ∈ tokens, v = token ∨ d.Suggests token v := by
  induction h with
  | nil => simp
  | cons _ hmem _ ih =>
    rw [List.mem_append, List.mem_cons, hmem, ih]
    simp only [List.mem_cons, exists_eq_or_imp]

/-- There is just one expansion. -/
theorem Expands.unique {d : Config.Denomination} {tokens expanded expanded' : List String}
    (h : d.Expands tokens expanded) (h' : d.Expands tokens expanded') : expanded = expanded' := by
  induction h generalizing expanded' with
  | nil =>
    cases h'
    rfl
  | cons hascending hmem _ ih =>
    cases h' with
    | cons hascending' hmem' hrest' =>
      have hsuggestions := KeyMap.eq_of_mem_iff hascending hascending' fun v =>
        (hmem v).trans (hmem' v).symm
      rw [hsuggestions, ih hrest']

end Config.Denomination

/-! ## Compiled rules -/

/-- All of some compiled patterns match when all of their sources do. -/
theorem forall_finds_iff {ms : List Matcher} {ps : List (Option Matcher)} (h : ms.map some = ps)
    {P : (String → Prop) → Prop} :
    (∀ p ∈ ps, P (Finds p)) ↔ ∀ m ∈ ms, P fun text => m.isMatch text = true := by
  have hfinds : ∀ m : Matcher, Finds (some m) = fun text => m.isMatch text = true := by
    intro m
    funext text
    simp [Finds]
  subst h
  simp only [List.mem_map, forall_exists_index, and_imp, forall_apply_eq_imp_iff₂, hfinds]

namespace DenominationRule

variable {r : DenominationRule} {key : String} {d : Config.Denomination}

theorem CompiledFrom.ignores_iff (h : r.CompiledFrom key d) (token : String) :
    r.fuzzyIgnore.any (·.isMatch token) = true ↔ d.Ignores token := by
  rw [List.any_eq_true]
  constructor
  · rintro ⟨m, hm, hmatch⟩
    obtain ⟨source, hsource, hcompile⟩ := (mem_of_map_some h.fuzzyIgnore).1 hm
    exact ⟨source, hsource, m, hcompile, hmatch⟩
  · rintro ⟨source, hsource, m, hcompile, hmatch⟩
    exact ⟨m, (mem_of_map_some h.fuzzyIgnore).2 ⟨source, hsource, hcompile⟩, hmatch⟩

/-- Without a vocabulary nothing is suggested. -/
theorem expands_self (hfuzzy : d.fuzzy = none) (tokens : List String) :
    d.Expands tokens tokens := by
  induction tokens with
  | nil => exact .nil
  | cons token tokens ih =>
    have hnone : ∀ v, v ∈ ([] : List String) ↔ d.Suggests token v := fun v => by
      simp [Config.Denomination.Suggests, hfuzzy]
    exact .cons List.Pairwise.nil hnone ih

/-- The suggestions of a rule. -/
theorem CompiledFrom.expands_expand (h : r.CompiledFrom key d) (tokens : List String) :
    d.Expands tokens (r.expand tokens) := by
  cases hfuzzy : d.fuzzy with
  | none =>
    rw [expand, h.fuzzy, hfuzzy]
    exact expands_self hfuzzy tokens
  | some f =>
    rw [expand, h.fuzzy, hfuzzy]
    simp only [Option.map_some]
    induction tokens with
    | nil => exact .nil
    | cons token tokens ih =>
      rw [List.flatMap_cons, expandToken]
      refine .cons ?_ (fun v => ?_) ih
      · split
        · exact List.Pairwise.nil
        · exact Fuzzy.Model.suggest_ascending _ token
      · rw [Config.Denomination.Suggests, ← h.ignores_iff token]
        simp only [hfuzzy, Option.some.injEq, exists_eq_left']
        split
        · rename_i hignores
          simp [hignores]
        · rename_i hignores
          rw [Fuzzy.Model.mem_suggest_train, and_iff_right hignores]

/-- A compiled rule decides whether its denomination fits. -/
theorem CompiledFrom.isMatch_iff_fits (h : r.CompiledFrom key d) (tokens : List String) :
    r.isMatch tokens = true ↔ d.Fits tokens := by
  have hexpands := h.expands_expand tokens
  have hjoined : ∀ delimiter,
      (!(String.intercalate delimiter (r.expand tokens)).isEmpty &&
          r.patterns.all (·.isMatch (String.intercalate delimiter (r.expand tokens)))) = true ↔
        d.FitsJoined delimiter tokens := by
    intro delimiter
    have hall := forall_finds_iff h.patterns
      (P := fun finds => finds (String.intercalate delimiter (r.expand tokens)))
    rw [Bool.and_eq_true, List.all_eq_true, ← hall]
    constructor
    · rintro ⟨hne, hfinds⟩
      exact ⟨r.expand tokens, hexpands, by simpa using hne, hfinds⟩
    · rintro ⟨expanded, hexpanded, hne, hfinds⟩
      obtain rfl := hexpanded.unique hexpands
      exact ⟨by simpa using hne, hfinds⟩
  have htokens : (r.patterns.all fun p => (r.expand tokens).any p.isMatch) = true ↔
      d.FitsTokens tokens := by
    have hall := forall_finds_iff h.patterns
      (P := fun finds => ∃ token ∈ tokens, finds token ∨ ∃ v, d.Suggests token v ∧ finds v)
    rw [Config.Denomination.FitsTokens, hall, List.all_eq_true]
    refine forall₂_congr fun m _ => ?_
    rw [List.any_eq_true]
    constructor
    · rintro ⟨v, hv, hmatch⟩
      obtain ⟨token, htoken, rfl | hsuggests⟩ := hexpands.mem_iff.1 hv
      · exact ⟨v, htoken, .inl hmatch⟩
      · exact ⟨token, htoken, .inr ⟨v, hsuggests, hmatch⟩⟩
    · rintro ⟨token, htoken, hmatch | ⟨v, hsuggests, hmatch⟩⟩
      · exact ⟨token, hexpands.mem_iff.2 ⟨token, htoken, .inl rfl⟩, hmatch⟩
      · exact ⟨v, hexpands.mem_iff.2 ⟨token, htoken, .inr hsuggests⟩, hmatch⟩
  rw [isMatch, fits, Config.Denomination.Fits, ← h.joinMethod]
  cases r.joinMethod with
  | perToken => exact htokens
  | spaced => exact hjoined " "
  | concatenated => exact hjoined ""

/-! ## The order of the rules -/

/-- A rule comes before another one: it has the smaller value, or of one value the smaller key. -/
def Precedes (a b : DenominationRule) : Prop :=
  a.value < b.value ∨ (a.value = b.value ∧ a.denomination < b.denomination)

theorem value_le_trans (a b c : DenominationRule) (hab : decide (a.value ≤ b.value) = true)
    (hbc : decide (b.value ≤ c.value) = true) : decide (a.value ≤ c.value) = true := by
  rw [decide_eq_true_eq] at hab hbc ⊢
  omega

theorem value_le_total (a b : DenominationRule) :
    (decide (a.value ≤ b.value) || decide (b.value ≤ a.value)) = true := by
  rw [Bool.or_eq_true, decide_eq_true_eq, decide_eq_true_eq]
  omega

/-- The sort by value is stable: the rules of one value stay as they are. -/
theorem filter_mergeSort (rules : List DenominationRule) (n : Nat) :
    (rules.mergeSort fun a b => a.value ≤ b.value).filter (·.value == n) =
      rules.filter (·.value == n) := by
  have hequal : (rules.filter (·.value == n)).Pairwise
      fun a b => decide (a.value ≤ b.value) = true := by
    rw [List.pairwise_filter]
    refine List.pairwise_of_forall fun a b ha hb => ?_
    rw [beq_iff_eq] at ha hb
    rw [decide_eq_true_eq]
    omega
  have hsublist : (rules.filter (·.value == n)).Sublist
      (rules.mergeSort fun a b => a.value ≤ b.value) :=
    List.sublist_mergeSort value_le_trans value_le_total hequal List.filter_sublist
  have hfilter := hsublist.filter (·.value == n)
  simp only [List.filter_filter, Bool.and_self] at hfilter
  have hlength := ((List.mergeSort_perm rules fun a b => a.value ≤ b.value).filter
    (·.value == n)).length_eq
  exact (hfilter.eq_of_length hlength.symm).symm

end DenominationRule

namespace Currency

open DenominationRule (Precedes value_le_trans value_le_total)

variable {code : String} {config : Config.Currency} {c : Currency}

/-- The rules come in the order of their values, and of one value in the order of their keys. -/
theorem CompiledFrom.denominations_ordered (h : c.CompiledFrom code config) :
    c.denominations.Pairwise Precedes := by
  obtain ⟨rules, hrules, hsorted⟩ := h.denominations
  have hkeys : rules.values.Pairwise fun a b => a.denomination < b.denomination := by
    have hname : ∀ e ∈ rules.entries, e.2.denomination = e.1 := by
      intro e he
      obtain ⟨d, _, hcompile⟩ := (KeyMap.mem_traverse hrules).1 he
      exact (DenominationRule.compile_ok hcompile).denomination
    have hascending := List.pairwise_map.1 rules.ascending
    rw [KeyMap.values, List.pairwise_map]
    refine hascending.imp_of_mem fun {a b} ha hb hlt => ?_
    rwa [hname a ha, hname b hb]
  have hvalues : c.denominations.Pairwise fun a b => decide (a.value ≤ b.value) = true := by
    rw [hsorted]
    exact List.pairwise_mergeSort value_le_trans value_le_total _
  rw [List.pairwise_iff_forall_sublist]
  intro a b hab
  have hle : a.value ≤ b.value := of_decide_eq_true (List.pairwise_iff_forall_sublist.1 hvalues hab)
  by_cases hlt : a.value < b.value
  · exact .inl hlt
  · have heq : b.value = a.value := by omega
    -- Rules of one value stand as they stood before the sort, that is by their keys.
    have hfilter := hab.filter (·.value == a.value)
    rw [hsorted, DenominationRule.filter_mergeSort] at hfilter
    simp only [List.filter_cons, heq, beq_self_eq_true, if_true, List.filter_nil] at hfilter
    exact .inr ⟨heq.symm, List.pairwise_iff_forall_sublist.1 hkeys
      (hfilter.trans List.filter_sublist)⟩

/-- The first rule that fits comes before all others that do. -/
theorem find?_precedes {rules : List DenominationRule} (h : rules.Pairwise Precedes)
    {p : DenominationRule → Bool} {r : DenominationRule} (hr : rules.find? p = some r) :
    ∀ r' ∈ rules, p r' = true → r' = r ∨ Precedes r r' := by
  obtain ⟨_, before, after, rfl, hbefore⟩ := List.find?_eq_some_iff_append.1 hr
  intro r' hr' hp
  rcases List.mem_append.1 hr' with hmem | hmem
  · have hnot := hbefore r' hmem
    rw [hp] at hnot
    cases hnot
  · rcases List.mem_cons.1 hmem with rfl | hmem
    · exact .inl rfl
    · rw [List.pairwise_append] at h
      exact .inr ((List.pairwise_cons.1 h.2.1).1 r' hmem)

/-! ## The denomination -/

/-- A key comes before another one, or is the same: it has the smaller value, or of one value the
smaller text. -/
def KeyPrecedes (key key' : String) : Prop :=
  ∃ n n', naturalBelow? (1 <<< 64) key.toList = some n ∧
    naturalBelow? (1 <<< 64) key'.toList = some n' ∧ (n < n' ∨ (n = n' ∧ key ≤ key'))

theorem KeyPrecedes.antisymm {key key' : String} (h : KeyPrecedes key key')
    (h' : KeyPrecedes key' key) : key = key' := by
  obtain ⟨n, n', hn, hn', hle⟩ := h
  obtain ⟨m', m, hm', hm, hle'⟩ := h'
  obtain rfl : m = n := Option.some.inj (hm.symm.trans hn)
  obtain rfl : m' = n' := Option.some.inj (hm'.symm.trans hn')
  rcases hle with hlt | ⟨heq, hkey⟩
  · rcases hle' with hlt' | ⟨heq', _⟩ <;> omega
  · rcases hle' with hlt' | ⟨_, hkey'⟩
    · omega
    · exact String.le_antisymm hkey hkey'

/-- No denomination has the empty key, which is no number. -/
theorem CompiledFrom.key_ne_empty (h : c.CompiledFrom code config) :
    "" ∉ config.denominations.keys := by
  intro hkey
  obtain ⟨⟨key, d⟩, hd, rfl⟩ := List.mem_map.1 hkey
  obtain ⟨r, _, _, hrule⟩ := h.exists_rule (KeyMap.get?_eq_some_iff.2 hd)
  have hvalue := hrule.value
  simp [naturalBelow?] at hvalue

theorem CompiledFrom.classify_cases (h : c.CompiledFrom code config) (tokens : List String) :
    (c.classify tokens = "" ∧ ∀ key d, config.denominations.get? key = some d → ¬ d.Fits tokens) ∨
      ∃ d, config.denominations.get? (c.classify tokens) = some d ∧ d.Fits tokens ∧
        ∀ key' d', config.denominations.get? key' = some d' → d'.Fits tokens →
          KeyPrecedes (c.classify tokens) key' := by
  rw [classify]
  cases hfind : c.denominations.find? (·.isMatch tokens) with
  | none =>
    refine .inl ⟨rfl, fun key d hd hfits => ?_⟩
    obtain ⟨r, hr, _, hrule⟩ := h.exists_rule hd
    exact List.find?_eq_none.1 hfind r hr ((hrule.isMatch_iff_fits tokens).2 hfits)
  | some r =>
    obtain ⟨d, hd, hrule⟩ := h.exists_denomination (List.mem_of_find?_eq_some hfind)
    have hfound : r.isMatch tokens = true :=
      List.find?_some (p := fun r : DenominationRule => r.isMatch tokens) hfind
    refine .inr ⟨d, hd, (hrule.isMatch_iff_fits tokens).1 hfound, ?_⟩
    intro key' d' hd' hfits'
    obtain ⟨r', hr', _, hrule'⟩ := h.exists_rule hd'
    refine ⟨r.value, r'.value, hrule.value, hrule'.value, ?_⟩
    have hmatch : r'.isMatch tokens = true := (hrule'.isMatch_iff_fits tokens).2 hfits'
    rcases find?_precedes h.denominations_ordered hfind r' hr' hmatch with rfl | hlt | ⟨heq, hlt⟩
    · exact .inr ⟨rfl, hrule'.denomination ▸ String.le_refl _⟩
    · exact .inl hlt
    · rw [hrule'.denomination] at hlt
      exact .inr ⟨heq, String.not_lt.1 (String.lt_asymm hlt)⟩

/-- The denomination recognized is the key of the least denomination that fits, by its value and
then by its text, and it is empty exactly when none fits; no denomination has the empty key.  A
compiled rule matches exactly when its denomination fits. -/
theorem classify_eq_least (h : Currency.compile code config = .ok c) (tokens : List String) :
    "" ∉ config.denominations.keys ∧
      (∀ key d, config.denominations.get? key = some d →
        ∃ r, c.rule? key = some r ∧ (r.isMatch tokens = true ↔ d.Fits tokens)) ∧
      (c.classify tokens = "" ↔
        ∀ key d, config.denominations.get? key = some d → ¬ d.Fits tokens) ∧
      ∀ key, key ≠ "" → (c.classify tokens = key ↔
        ∃ d, config.denominations.get? key = some d ∧ d.Fits tokens ∧
          ∀ key' d', config.denominations.get? key' = some d' → d'.Fits tokens →
            KeyPrecedes key key') := by
  have hc := Currency.compile_ok h
  have hkeys := hc.key_ne_empty
  refine ⟨hkeys, fun key d hd => ?_, ?_, fun key hkey => ?_⟩
  · obtain ⟨r, _, hrule?, hrule⟩ := hc.exists_rule hd
    exact ⟨r, hrule?, hrule.isMatch_iff_fits tokens⟩
  · constructor
    · intro hempty
      rcases hc.classify_cases tokens with ⟨_, hnone⟩ | ⟨d, hd, _⟩
      · exact hnone
      · rw [hempty] at hd
        exact absurd (List.mem_map_of_mem (KeyMap.get?_eq_some_iff.1 hd)) hkeys
    · intro hnone
      rcases hc.classify_cases tokens with ⟨hempty, _⟩ | ⟨d, hd, hfits, _⟩
      · exact hempty
      · exact absurd hfits (hnone _ d hd)
  · rcases hc.classify_cases tokens with ⟨hempty, hnone⟩ | ⟨d, hd, hfits, hleast⟩
    · constructor
      · intro heq
        exact absurd (heq.symm.trans hempty) hkey
      · rintro ⟨d, hd, hfits, _⟩
        exact absurd hfits (hnone key d hd)
    · constructor
      · rintro rfl
        exact ⟨d, hd, hfits, hleast⟩
      · rintro ⟨d', hd', hfits', hleast'⟩
        exact (hleast key d' hd' hfits').antisymm (hleast' _ d hd hfits)

/-- Two denominations of one value. -/
def twoFives : Config.Currency where
  denominations := .ofList [("5", { patterns := ["five"] }), ("05", { patterns := ["five"] })]

theorem classify_eq_least_two_fives :
    ∃ c, Currency.compile "XTS" twoFives = .ok c ∧ c.classify ["five"] = "05" := by
  have hcompiles : (Currency.compile "XTS" twoFives).toOption.isSome = true := by decide +kernel
  obtain ⟨c, hc⟩ := Option.isSome_iff_exists.1 hcompiles
  have hcompile := eq_ok_of_toOption hc
  have hfinds : Finds (Matcher.linear? "five") "five" := by
    have hany : (Matcher.linear? "five").any (·.isMatch "five") = true := by decide +kernel
    exact (Option.any_eq_true _ _).1 hany
  have hfits : ({ patterns := ["five"] } : Config.Denomination).Fits ["five"] := by
    intro p hp
    simp only [Config.Denomination.matchers, List.map_cons, List.map_nil, List.append_nil,
      List.mem_singleton] at hp
    subst hp
    exact ⟨"five", List.mem_singleton.2 rfl, .inl hfinds⟩
  have hleast : ∀ key d, twoFives.denominations.get? key = some d → d.Fits ["five"] →
      KeyPrecedes "05" key := by
    intro key d hd _
    have hkey := List.mem_map_of_mem (f := Prod.fst) (KeyMap.get?_eq_some_iff.1 hd)
    have hkeys : twoFives.denominations.entries.map Prod.fst = ["05", "5"] := by decide +kernel
    rw [hkeys, List.mem_cons, List.mem_singleton] at hkey
    rcases hkey with rfl | rfl
    · exact ⟨5, 5, by decide, by decide, .inr ⟨rfl, by decide⟩⟩
    · exact ⟨5, 5, by decide, by decide, .inr ⟨rfl, by decide⟩⟩
  obtain ⟨_, _, _, hclassify⟩ := classify_eq_least hcompile ["five"]
  exact ⟨c, hcompile, (hclassify "05" (by decide)).2
    ⟨{ patterns := ["five"] }, rfl, hfits, hleast⟩⟩

end Currency

end Banknote
