import Banknote.Currency.Compile
import Banknote.Proofs.Except
import Banknote.Proofs.KeyMap

/-!
# What a compiled configuration holds

One lemma for each function that compiles, which says what the compiled part has to do with the
configuration.

* Lists and maps.  `compileAll_eq_ok` and `mem_traverse` say that what was compiled holds the
  compiled items, each at its place.
* `DenominationRule.CompiledFrom`, `SerialPlan.CompiledFrom`, `SerialTree.CompiledFrom` and
  `Currency.CompiledFrom` relate a compiled part to its configuration, and `compile_ok` says that
  compiling makes them hold.
* Tables.  `ofConfig_get?` looks a code up in a compiled table.
-/

namespace Banknote

open Pattern (Matcher)

/-! ## Lists and maps -/

theorem compileAll_eq_ok {α β : Type} {compile : α → Except Failure β} {l : List α} {r : List β} :
    compileAll compile l = .ok r ↔ l.map compile = r.map .ok := by
  induction l generalizing r with
  | nil => cases r <;> simp [compileAll]
  | cons a l ih =>
    rw [compileAll, bind_eq_ok]
    constructor
    · rintro ⟨b, hb, hrest⟩
      obtain ⟨bs, hbs, hr⟩ := bind_eq_ok.1 hrest
      cases hr
      rw [List.map_cons, List.map_cons, hb, ih.1 hbs]
    · intro h
      cases r with
      | nil => cases h
      | cons b bs =>
        obtain ⟨hb, hbs⟩ := List.cons.inj h
        exact ⟨b, hb, bind_eq_ok.2 ⟨bs, ih.2 hbs, rfl⟩⟩

theorem orInvalid_eq_ok {place : Place} {source : String} {o : Option Matcher} {m : Matcher} :
    orInvalid place source o = .ok m ↔ o = some m := by
  cases o <;> simp [orInvalid]

/-- Patterns that compile without a failure are compiled one by one. -/
theorem map_of_compileAll {place : Place} {compile : String → Option Matcher} {l : List String}
    {ms : List Matcher}
    (h : compileAll (fun source => orInvalid place source (compile source)) l = .ok ms) :
    ms.map some = l.map compile := by
  induction l generalizing ms with
  | nil =>
    cases h
    rfl
  | cons source l ih =>
    rw [compileAll_eq_ok] at h
    cases ms with
    | nil => cases h
    | cons m ms =>
      obtain ⟨hm, hms⟩ := List.cons.inj h
      rw [List.map_cons, List.map_cons, orInvalid_eq_ok.1 hm, ih (compileAll_eq_ok.2 hms)]

theorem mem_of_map_some {l : List String} {compile : String → Option Matcher} {ms : List Matcher}
    (h : ms.map some = l.map compile) {m : Matcher} :
    m ∈ ms ↔ ∃ source ∈ l, compile source = some m := by
  have hmem : some m ∈ ms.map some ↔ some m ∈ l.map compile := by rw [h]
  simpa using hmem

namespace KeyMap

variable {α β ε : Type}

theorem mem_traverseEntries {f : String → α → Except ε β} {l : List (String × α)}
    {r : List (String × β)} (h : traverseEntries f l = .ok r) {k : String} {b : β} :
    (k, b) ∈ r ↔ ∃ a, (k, a) ∈ l ∧ f k a = .ok b := by
  induction l generalizing r with
  | nil =>
    cases h
    simp
  | cons e l ih =>
    obtain ⟨k₀, a₀⟩ := e
    rw [traverseEntries] at h
    split at h
    · cases h
    · rename_i b₀ hb₀
      split at h
      · cases h
      · rename_i bs hbs
        cases h
        rw [List.mem_cons, ih hbs]
        constructor
        · rintro (heq | ⟨a, ha, hb⟩)
          · cases heq
            exact ⟨a₀, List.mem_cons_self, hb₀⟩
          · exact ⟨a, List.mem_cons_of_mem _ ha, hb⟩
        · rintro ⟨a, ha, hb⟩
          rcases List.mem_cons.1 ha with heq | ha
          · cases heq
            rw [hb] at hb₀
            cases hb₀
            exact .inl rfl
          · exact .inr ⟨a, ha, hb⟩

theorem traverse_ok {f : String → α → Except ε β} {m : KeyMap α} {m' : KeyMap β}
    (h : m.traverse f = .ok m') : traverseEntries f m.entries = .ok m'.entries := by
  rw [traverse] at h
  split at h
  · cases h
  · rename_i entries hentries
    cases h
    exact hentries

/-- The rebuilt map holds the rebuilt values under their keys. -/
theorem mem_traverse {f : String → α → Except ε β} {m : KeyMap α} {m' : KeyMap β}
    (h : m.traverse f = .ok m') {k : String} {b : β} :
    (k, b) ∈ m'.entries ↔ ∃ a, (k, a) ∈ m.entries ∧ f k a = .ok b :=
  mem_traverseEntries (traverse_ok h)

theorem keys_traverse {f : String → α → Except ε β} {m : KeyMap α} {m' : KeyMap β}
    (h : m.traverse f = .ok m') : m'.keys = m.keys :=
  traverseEntries_keys (traverse_ok h)

theorem get?_traverse_none {f : String → α → Except ε β} {m : KeyMap α} {m' : KeyMap β}
    (h : m.traverse f = .ok m') {k : String} (hk : m.get? k = none) : m'.get? k = none := by
  rw [get?_eq_none_iff] at hk ⊢
  rwa [keys_traverse h]

theorem get?_traverse_some {f : String → α → Except ε β} {m : KeyMap α} {m' : KeyMap β}
    (h : m.traverse f = .ok m') {k : String} {a : α} (hk : m.get? k = some a) :
    ∃ b, f k a = .ok b ∧ m'.get? k = some b := by
  have hkey : k ∈ m'.keys := by
    rw [keys_traverse h]
    exact List.mem_map_of_mem (get?_eq_some_iff.1 hk)
  obtain ⟨⟨k', b⟩, hb, rfl⟩ := List.mem_map.1 hkey
  obtain ⟨a', ha', hf⟩ := (mem_traverse h).1 hb
  obtain rfl : a' = a := Option.some.inj ((get?_eq_some_iff.2 ha').symm.trans hk)
  exact ⟨b, hf, get?_eq_some_iff.2 hb⟩

end KeyMap

/-! ## Denominations -/

/-- The patterns of a denomination, each compiled for its engine. -/
def Config.Denomination.matchers (d : Config.Denomination) : List (Option Matcher) :=
  d.patterns.map Matcher.linear? ++ d.dualPatterns.map (Matcher.backtracking? · .leftToRight)

theorem compilePatterns_ok {place : Place} {d : Config.Denomination} {ms : List Matcher}
    (h : compilePatterns place d = .ok ms) : ms.map some = d.matchers := by
  rw [compilePatterns] at h
  split at h
  · rename_i hdual
    rw [Config.Denomination.matchers, List.isEmpty_iff.1 hdual, List.map_nil, List.append_nil]
    exact map_of_compileAll h
  · rename_i hpatterns _
    rw [Config.Denomination.matchers, List.isEmpty_iff.1 hpatterns, List.map_nil, List.nil_append]
    exact map_of_compileAll h
  · cases h
  · cases h

/-- A rule says what the configuration of its denomination says. -/
structure DenominationRule.CompiledFrom (r : DenominationRule) (key : String)
    (d : Config.Denomination) : Prop where
  denomination : r.denomination = key
  value : naturalBelow? (1 <<< 64) key.toList = some r.value
  patterns : r.patterns.map some = d.matchers
  joinMethod : r.joinMethod = d.joinMethod
  fuzzy : r.fuzzy = d.fuzzy.map fun f => Fuzzy.Model.train f.vocabulary f.depth
  fuzzyIgnore : r.fuzzyIgnore.map some = d.fuzzyIgnore.map Matcher.linear?

theorem DenominationRule.compile_ok {code key : String} {d : Config.Denomination}
    {r : DenominationRule} (h : DenominationRule.compile code key d = .ok r) :
    r.CompiledFrom key d := by
  rw [DenominationRule.compile] at h
  split at h
  · rename_i value hvalue
    obtain ⟨_, hok, h⟩ := bind_eq_ok.1 h
    obtain ⟨patterns, hpatterns, h⟩ := bind_eq_ok.1 h
    obtain ⟨fuzzyIgnore, hignore, h⟩ := bind_eq_ok.1 h
    obtain ⟨colorHints, _, h⟩ := bind_eq_ok.1 h
    cases hok
    cases h
    exact ⟨rfl, hvalue, compilePatterns_ok hpatterns, rfl, rfl, map_of_compileAll hignore⟩
  · obtain ⟨_, hfail, _⟩ := bind_eq_ok.1 h
    cases hfail

/-! ## Serial trees -/

/-- The pattern of a directive, compiled for its engine; there is none unless the directive has just
one pattern. -/
def Config.Directive.matcher? (d : Config.Directive) : Option Matcher :=
  match d.pattern, d.dualPattern with
  | some pattern, none => Matcher.linear? pattern
  | none, some pattern => Matcher.backtracking? pattern d.direction
  | _, _ => none

theorem compilePattern_ok {place : Place} {d : Config.Directive} {m : Matcher}
    (h : compilePattern place d = .ok m) : d.matcher? = some m := by
  unfold compilePattern at h
  unfold Config.Directive.matcher?
  cases hpattern : d.pattern with
  | some pattern =>
    cases hdual : d.dualPattern with
    | some _ =>
      rw [hpattern, hdual] at h
      cases h
    | none =>
      rw [hpattern, hdual] at h
      exact orInvalid_eq_ok.1 h
  | none =>
    cases hdual : d.dualPattern with
    | some pattern =>
      rw [hpattern, hdual] at h
      exact orInvalid_eq_ok.1 h
    | none =>
      rw [hpattern, hdual] at h
      cases h

/-- A plan says what its directive says. -/
structure SerialPlan.CompiledFrom (p : SerialPlan) (d : Config.Directive) : Prop where
  matcher : d.matcher? = some p.matcher
  captureGroup : p.captureGroup = d.captureGroup
  captureGroup_lt : p.captureGroup < p.matcher.groupCount
  joinMethod : p.joinMethod = d.joinMethod
  tokensToRemove : p.tokensToRemove.map some = d.tokensToRemove.map Matcher.linear?
  resultFilters : d.resultFilters.map compileResultFilter = p.resultFilters.map .ok
  matchFilters : d.matchFilters.map compileMatchFilter = p.matchFilters.map .ok

theorem SerialPlan.compile_ok {place : Place} {d : Config.Directive} {p : SerialPlan}
    (h : SerialPlan.compile place d = .ok p) : p.CompiledFrom d := by
  unfold SerialPlan.compile at h
  obtain ⟨m, hm, h⟩ := bind_eq_ok.1 h
  dsimp only at h
  split at h
  · obtain ⟨_, hfail, _⟩ := bind_eq_ok.1 h
    cases hfail
  · rename_i hgroup
    obtain ⟨tokensToRemove, htokens, h⟩ := bind_eq_ok.1 h
    obtain ⟨resultFilters, hresult, h⟩ := bind_eq_ok.1 h
    obtain ⟨matchFilters, hmatch, h⟩ := bind_eq_ok.1 h
    cases h
    exact ⟨compilePattern_ok hm, rfl, Nat.lt_of_not_le hgroup, rfl, map_of_compileAll htokens,
      compileAll_eq_ok.1 hresult, compileAll_eq_ok.1 hmatch⟩

/-- The plans of a tree are those of its configuration. -/
structure SerialTree.CompiledFrom (t : SerialTree) (code : String) (s : Config.Serial) :
    Prop where
  root : SerialPlan.compile (.directive code Place.serialKey) s.root = .ok t.root
  none : ∀ key, s.entries.get? key = none → t.entries.get? key = none
  reference : ∀ key name, s.entries.get? key = some (.reference name) →
    t.entries.get? key = some (.reference name)
  concrete : ∀ key directive, s.entries.get? key = some (.concrete directive) →
    ∃ plan, SerialPlan.compile (.directive code key) directive = .ok plan ∧
      t.entries.get? key = some (.concrete plan)

theorem SerialTree.compile_ok {code : String} {s : Config.Serial} {t : SerialTree}
    (h : SerialTree.compile code s = .ok t) : t.CompiledFrom code s := by
  rw [SerialTree.compile] at h
  obtain ⟨root, hroot, h⟩ := bind_eq_ok.1 h
  obtain ⟨entries, hentries, h⟩ := bind_eq_ok.1 h
  cases h
  refine ⟨hroot, fun key => KeyMap.get?_traverse_none hentries, ?_, ?_⟩
  · intro key name hkey
    obtain ⟨entry, hentry, hget⟩ := KeyMap.get?_traverse_some hentries hkey
    cases hentry
    exact hget
  · intro key directive hkey
    obtain ⟨entry, hentry, hget⟩ := KeyMap.get?_traverse_some hentries hkey
    obtain ⟨plan, hplan, rfl⟩ := map_eq_ok.1 hentry
    exact ⟨plan, hplan, hget⟩

/-! ## Currencies -/

/-- A currency says what its configuration says. -/
structure Currency.CompiledFrom (c : Currency) (code : String) (config : Config.Currency) :
    Prop where
  code_eq : c.code = code
  language : c.language = config.language
  textMarks : c.textMarks.map some = config.textMarks.map Matcher.linear?
  denominations : ∃ rules,
    config.denominations.traverse (DenominationRule.compile code) = .ok rules ∧
      c.denominations = rules.values.mergeSort fun a b => a.value ≤ b.value
  serial_none : config.serial = none → c.serial = none
  serial_some : ∀ s, config.serial = some s → ∃ t, t.CompiledFrom code s ∧ c.serial = some t

theorem Currency.compile_ok {code : String} {config : Config.Currency} {c : Currency}
    (h : Currency.compile code config = .ok c) : c.CompiledFrom code config := by
  rw [Currency.compile] at h
  obtain ⟨textMarks, hmarks, h⟩ := bind_eq_ok.1 h
  obtain ⟨rules, hrules, h⟩ := bind_eq_ok.1 h
  have htextMarks := map_of_compileAll hmarks
  cases hserial : config.serial with
  | none =>
    rw [hserial] at h
    obtain ⟨serial, hnone, h⟩ := bind_eq_ok.1 h
    cases hnone
    cases h
    exact ⟨rfl, rfl, htextMarks, ⟨rules, hrules, rfl⟩, fun _ => rfl, by simp [hserial]⟩
  | some s =>
    rw [hserial] at h
    obtain ⟨serial, hsome, h⟩ := bind_eq_ok.1 h
    obtain ⟨t, ht, rfl⟩ := map_eq_ok.1 hsome
    cases h
    have htree : t.CompiledFrom code s := SerialTree.compile_ok ht
    exact ⟨rfl, rfl, htextMarks, ⟨rules, hrules, rfl⟩, by simp [hserial],
      fun s' hs' => ⟨t, Option.some.inj (hserial.symm.trans hs') ▸ htree, rfl⟩⟩

namespace Currency

variable {code : String} {config : Config.Currency} {c : Currency}

/-- The rules are those of the denominations, in some order. -/
theorem CompiledFrom.mem_denominations (h : c.CompiledFrom code config) {r : DenominationRule} :
    r ∈ c.denominations ↔
      ∃ e ∈ config.denominations.entries, DenominationRule.compile code e.1 e.2 = .ok r := by
  obtain ⟨rules, hrules, hsorted⟩ := h.denominations
  rw [hsorted, List.mem_mergeSort, KeyMap.values, List.mem_map]
  constructor
  · rintro ⟨⟨key, r'⟩, hr, rfl⟩
    obtain ⟨d, hd, hcompile⟩ := (KeyMap.mem_traverse hrules).1 hr
    exact ⟨(key, d), hd, hcompile⟩
  · rintro ⟨⟨key, d⟩, hd, hcompile⟩
    exact ⟨(key, r), (KeyMap.mem_traverse hrules).2 ⟨d, hd, hcompile⟩, rfl⟩

/-- Every rule comes from the denomination of its name. -/
theorem CompiledFrom.exists_denomination (h : c.CompiledFrom code config) {r : DenominationRule}
    (hr : r ∈ c.denominations) :
    ∃ d, config.denominations.get? r.denomination = some d ∧ r.CompiledFrom r.denomination d := by
  obtain ⟨⟨key, d⟩, hd, hcompile⟩ := h.mem_denominations.1 hr
  have hrule := DenominationRule.compile_ok hcompile
  obtain rfl : r.denomination = key := hrule.denomination
  exact ⟨d, KeyMap.get?_eq_some_iff.2 hd, hrule⟩

/-- Every denomination has a rule, which is found by its name. -/
theorem CompiledFrom.exists_rule (h : c.CompiledFrom code config) {key : String}
    {d : Config.Denomination} (hd : config.denominations.get? key = some d) :
    ∃ r ∈ c.denominations, c.rule? key = some r ∧ r.CompiledFrom key d := by
  obtain ⟨rules, hrules, _⟩ := h.denominations
  obtain ⟨r₀, hr₀, _⟩ := KeyMap.get?_traverse_some hrules hd
  have hmem : r₀ ∈ c.denominations :=
    h.mem_denominations.2 ⟨(key, d), KeyMap.get?_eq_some_iff.1 hd, hr₀⟩
  have hname : r₀.denomination = key := (DenominationRule.compile_ok hr₀).denomination
  cases hfind : c.rule? key with
  | none =>
    rw [rule?, List.find?_eq_none] at hfind
    exact absurd (beq_iff_eq.2 hname) (hfind r₀ hmem)
  | some r =>
    have hr : r ∈ c.denominations := List.mem_of_find?_eq_some hfind
    obtain rfl : r.denomination = key := by simpa using List.find?_some hfind
    obtain ⟨d', hd', hrule⟩ := h.exists_denomination hr
    obtain rfl : d' = d := Option.some.inj (hd'.symm.trans hd)
    exact ⟨r, hr, rfl, hrule⟩

theorem CompiledFrom.rule?_eq_none (h : c.CompiledFrom code config) {key : String}
    (hd : config.denominations.get? key = none) : c.rule? key = none := by
  cases hfind : c.rule? key with
  | none => rfl
  | some r =>
    obtain rfl : r.denomination = key := by simpa using List.find?_some hfind
    obtain ⟨d, hd', _⟩ := h.exists_denomination (List.mem_of_find?_eq_some hfind)
    rw [hd] at hd'
    cases hd'

end Currency

/-! ## Tables -/

theorem CurrencyTable.ofConfig_ok {source : Config.Table} {t : CurrencyTable}
    (h : CurrencyTable.ofConfig source = .ok t) :
    source.traverse Currency.compile = .ok t.currencies ∧ t.source = source := by
  rw [ofConfig] at h
  obtain ⟨currencies, hcurrencies, h⟩ := bind_eq_ok.1 h
  cases h
  exact ⟨hcurrencies, rfl⟩

theorem CurrencyTable.ofText_of_tableOfText {text : String} {source : Config.Table}
    {t : CurrencyTable} (htext : Config.tableOfText text = .ok source)
    (h : ofConfig source = .ok t) : ofText text = .ok t := by
  rw [ofText, htext]
  exact h

end Banknote
