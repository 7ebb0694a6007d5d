import Banknote.Proofs.Currency.Acceptance
import Banknote.Proofs.Recognition.Process
import Mathlib.Data.List.Forall2
import Mathlib.Data.List.Nodup

/-!
# Compiled tables as images of their configurations

A table that was compiled shows its configuration: nothing is lost, added or put in another order,
and the denominations alone are sorted.

There are four groups.

* Lists.  `forall₂_of_map_eq` turns "compiled one by one" into a relation between the two lists, item
  by item.
* Patterns.  `Matcher.IsOf` says of which text, for which engine and in which direction a matcher is;
  `linear?_isOf` and `backtracking?_isOf` say so of compiled patterns.
* Parts.  `DenominationRule.Shows`, `SerialPlan.Shows`, `SerialEntry.Shows`, `SerialTree.Shows` and
  `Currency.Shows` say what a compiled part shows of its configuration, and a lemma for each says
  that compiling makes them hold.
* Tables.  `CurrencyTable.ofConfig_shows`, for every pattern that compiles (see
  `Pattern.Reader.readPattern` for those that do not).
-/

namespace Banknote

open Pattern (Engine Direction Matcher)

/-! ## Lists -/

theorem forall₂_of_map_eq {α β γ : Type} {f : α → γ} {g : β → γ} {l : List α} {l' : List β}
    (h : l.map f = l'.map g) : List.Forall₂ (fun a b => f a = g b) l l' := by
  rw [← List.forall₂_eq_eq_eq, List.forall₂_map_left_iff, List.forall₂_map_right_iff] at h
  exact h

/-! ## Patterns -/

namespace Pattern.Matcher

/-- A matcher is the compiled form of a text, for an engine and in a direction. -/
structure IsOf (engine : Engine) (direction : Direction) (m : Matcher) (source : String) :
    Prop where
  source_eq : m.source = source
  engine_eq : m.engine = engine
  direction_eq : m.direction = direction
  program : Program.compile? engine source.toList = some m.program

theorem linear?_isOf {source : String} {m : Matcher} (h : linear? source = some m) :
    m.IsOf .linear .leftToRight source := by
  obtain ⟨program, hprogram, rfl⟩ := Option.map_eq_some_iff.1 h
  exact ⟨rfl, rfl, rfl, hprogram⟩

theorem backtracking?_isOf {source : String} {direction : Direction} {m : Matcher}
    (h : backtracking? source direction = some m) : m.IsOf .backtracking direction source := by
  obtain ⟨program, hprogram, rfl⟩ := Option.map_eq_some_iff.1 h
  exact ⟨rfl, rfl, rfl, hprogram⟩

theorem forall₂_linear {ms : List Matcher} {sources : List String}
    (h : ms.map some = sources.map linear?) :
    List.Forall₂ (IsOf .linear .leftToRight) ms sources :=
  (forall₂_of_map_eq h).imp fun _ _ hm => linear?_isOf hm.symm

theorem forall₂_backtracking {ms : List Matcher} {sources : List String} {direction : Direction}
    (h : ms.map some = sources.map (backtracking? · direction)) :
    List.Forall₂ (IsOf .backtracking direction) ms sources :=
  (forall₂_of_map_eq h).imp fun _ _ hm => backtracking?_isOf hm.symm

end Pattern.Matcher

/-! ## Denominations -/

/-- A rule shows the configuration of its denomination.  Its patterns are all for one engine and
none is looked for from the right. -/
structure DenominationRule.Shows (r : DenominationRule) (d : Config.Denomination) : Prop where
  value : Writes r.denomination.toList r.value
  patterns_ne_nil : r.patterns ≠ []
  patterns : (d.dualPatterns = [] ∧
      List.Forall₂ (Matcher.IsOf .linear .leftToRight) r.patterns d.patterns) ∨
    (d.patterns = [] ∧
      List.Forall₂ (Matcher.IsOf .backtracking .leftToRight) r.patterns d.dualPatterns)
  joinMethod : r.joinMethod = d.joinMethod
  fuzzy : r.fuzzy = d.fuzzy.map fun f => Fuzzy.Model.train f.vocabulary f.depth
  fuzzyIgnore : List.Forall₂ (Matcher.IsOf .linear .leftToRight) r.fuzzyIgnore d.fuzzyIgnore
  colorHints : List.Forall₂ (fun hint e => ColorHint.ofKey? e.1 e.2 = some hint) r.colorHints
    d.colorHints.entries

theorem compileColorHint_ok {place : Place} {e : String × Binary .double} {hint : ColorHint}
    (h : compileColorHint place e = .ok hint) : ColorHint.ofKey? e.1 e.2 = some hint := by
  unfold compileColorHint at h
  dsimp only at h
  split at h
  · rename_i hhint
    cases h
    exact hhint
  · cases h

theorem DenominationRule.colorHints_ok {code key : String} {d : Config.Denomination}
    {r : DenominationRule} (h : DenominationRule.compile code key d = .ok r) :
    List.Forall₂ (fun hint e => ColorHint.ofKey? e.1 e.2 = some hint) r.colorHints
      d.colorHints.entries := by
  rw [DenominationRule.compile] at h
  split at h
  · obtain ⟨_, _, h⟩ := bind_eq_ok.1 h
    obtain ⟨patterns, _, h⟩ := bind_eq_ok.1 h
    obtain ⟨fuzzyIgnore, _, h⟩ := bind_eq_ok.1 h
    obtain ⟨colorHints, hcolors, h⟩ := bind_eq_ok.1 h
    cases h
    exact (forall₂_of_map_eq (compileAll_eq_ok.1 hcolors).symm).imp fun _ _ hhint =>
      compileColorHint_ok hhint.symm
  · obtain ⟨_, hfail, _⟩ := bind_eq_ok.1 h
    cases hfail

theorem DenominationRule.compile_shows {code key : String} {d : Config.Denomination}
    {r : DenominationRule} (h : DenominationRule.compile code key d = .ok r) : r.Shows d := by
  have hrule := DenominationRule.compile_ok h
  have hacceptable : d.Acceptable key := Config.Denomination.acceptable_iff.2
    ((Checks.denomination code key d).holds_of_ok r h)
  have hpatterns := hrule.patterns
  rw [Config.Denomination.matchers] at hpatterns
  have hmatchers : (d.patterns ≠ [] ∧ d.dualPatterns = [] ∧
        r.patterns.map some = d.patterns.map Matcher.linear?) ∨
      (d.patterns = [] ∧ d.dualPatterns ≠ [] ∧
        r.patterns.map some = d.dualPatterns.map (Matcher.backtracking? · .leftToRight)) := by
    refine hacceptable.patterns.imp ?_ ?_
    · rintro ⟨hsome, hnone⟩
      refine ⟨hsome, hnone, ?_⟩
      rw [hpatterns, hnone, List.map_nil, List.append_nil]
    · rintro ⟨hnone, hsome⟩
      refine ⟨hnone, hsome, ?_⟩
      rw [hpatterns, hnone, List.map_nil, List.nil_append]
  have hvalue : Writes r.denomination.toList r.value := by
    rw [hrule.denomination]
    exact (naturalBelow?_eq_some_iff.1 hrule.value).1
  refine ⟨hvalue, ?_, ?_, hrule.joinMethod, hrule.fuzzy,
    Matcher.forall₂_linear hrule.fuzzyIgnore, DenominationRule.colorHints_ok h⟩
  · intro hnil
    rw [hnil, List.map_nil] at hmatchers
    rcases hmatchers with ⟨hsome, _, hmap⟩ | ⟨_, hsome, hmap⟩
    · exact hsome (List.map_eq_nil_iff.1 hmap.symm)
    · exact hsome (List.map_eq_nil_iff.1 hmap.symm)
  · refine hmatchers.imp ?_ ?_
    · rintro ⟨_, hnone, hmap⟩
      exact ⟨hnone, Matcher.forall₂_linear hmap⟩
    · rintro ⟨hnone, _, hmap⟩
      exact ⟨hnone, Matcher.forall₂_backtracking hmap⟩

/-! ## Serial trees -/

/-- A plan shows its directive.  It is linear exactly if the directive has a pattern for the linear
engine, and it searches from the right exactly if the directive has one for the other engine and
says so. -/
structure SerialPlan.Shows (place : Place) (p : SerialPlan) (d : Config.Directive) : Prop where
  name : p.name = place.label
  matcher : (∃ source, d.pattern = some source ∧ d.dualPattern = none ∧
      p.matcher.IsOf .linear .leftToRight source) ∨
    ∃ source, d.pattern = none ∧ d.dualPattern = some source ∧
      p.matcher.IsOf .backtracking d.direction source
  linear_iff : p.matcher.engine = .linear ↔ d.pattern.isSome = true
  rightToLeft_iff : p.matcher.direction = .rightToLeft ↔
    d.dualPattern.isSome = true ∧ d.direction = .rightToLeft
  captureGroup : p.captureGroup = d.captureGroup
  joinMethod : p.joinMethod = d.joinMethod
  tokensToRemove : List.Forall₂ (Matcher.IsOf .linear .leftToRight) p.tokensToRemove
    d.tokensToRemove
  resultFilters : List.Forall₂ (fun filter name => ResultFilter.ofName? name = some filter)
    p.resultFilters d.resultFilters
  matchFilters : List.Forall₂ (fun filter name => MatchFilter.ofName? name = some filter)
    p.matchFilters d.matchFilters

theorem SerialPlan.name_ok {place : Place} {d : Config.Directive} {p : SerialPlan}
    (h : SerialPlan.compile place d = .ok p) : p.name = place.label := by
  unfold SerialPlan.compile at h
  obtain ⟨m, _, h⟩ := bind_eq_ok.1 h
  dsimp only at h
  split at h
  · obtain ⟨_, hfail, _⟩ := bind_eq_ok.1 h
    cases hfail
  · obtain ⟨tokensToRemove, _, h⟩ := bind_eq_ok.1 h
    obtain ⟨resultFilters, _, h⟩ := bind_eq_ok.1 h
    obtain ⟨matchFilters, _, h⟩ := bind_eq_ok.1 h
    cases h
    rfl

theorem compileResultFilter_ok {name : String} {filter : ResultFilter}
    (h : compileResultFilter name = .ok filter) : ResultFilter.ofName? name = some filter := by
  unfold compileResultFilter at h
  split at h
  · rename_i hfilter
    cases h
    exact hfilter
  · cases h

theorem compileMatchFilter_ok {name : String} {filter : MatchFilter}
    (h : compileMatchFilter name = .ok filter) : MatchFilter.ofName? name = some filter := by
  unfold compileMatchFilter at h
  split at h
  · rename_i hfilter
    cases h
    exact hfilter
  · cases h

/-- A matcher of a directive is that of its one pattern. -/
theorem Config.Directive.matcher?_eq_some {d : Config.Directive} {m : Matcher}
    (h : d.matcher? = some m) :
    (∃ source, d.pattern = some source ∧ d.dualPattern = none ∧
        m.IsOf .linear .leftToRight source) ∨
      ∃ source, d.pattern = none ∧ d.dualPattern = some source ∧
        m.IsOf .backtracking d.direction source := by
  unfold Config.Directive.matcher? at h
  split at h
  · rename_i source hpattern hdual
    exact .inl ⟨source, hpattern, hdual, Matcher.linear?_isOf h⟩
  · rename_i source hpattern hdual
    exact .inr ⟨source, hpattern, hdual, Matcher.backtracking?_isOf h⟩
  · cases h

theorem SerialPlan.compile_shows {place : Place} {d : Config.Directive} {p : SerialPlan}
    (h : SerialPlan.compile place d = .ok p) : p.Shows place d := by
  have hplan := SerialPlan.compile_ok h
  have hmatcher := Config.Directive.matcher?_eq_some hplan.matcher
  refine ⟨SerialPlan.name_ok h, hmatcher, ?_, ?_, hplan.captureGroup, hplan.joinMethod,
    Matcher.forall₂_linear hplan.tokensToRemove, ?_, ?_⟩
  · rcases hmatcher with ⟨source, hpattern, _, hm⟩ | ⟨source, hpattern, _, hm⟩
    · simp [hm.engine_eq, hpattern]
    · simp [hm.engine_eq, hpattern]
  · rcases hmatcher with ⟨source, _, hdual, hm⟩ | ⟨source, _, hdual, hm⟩
    · simp [hm.direction_eq, hdual]
    · simp [hm.direction_eq, hdual]
  · exact (forall₂_of_map_eq hplan.resultFilters.symm).imp fun _ _ hfilter =>
      compileResultFilter_ok hfilter.symm
  · exact (forall₂_of_map_eq hplan.matchFilters.symm).imp fun _ _ hfilter =>
      compileMatchFilter_ok hfilter.symm

/-- An entry is a plan or a reference as its configuration is. -/
inductive SerialEntry.Shows (place : Place) : SerialEntry → Config.Entry → Prop
  | concrete {plan : SerialPlan} {directive : Config.Directive}
    (hplan : plan.Shows place directive) : Shows place (.concrete plan) (.concrete directive)
  | reference (name : String) : Shows place (.reference name) (.reference name)

/-- A tree shows its default directive, and under each key just the entry that its configuration has
there. -/
structure SerialTree.Shows (code : String) (t : SerialTree) (s : Config.Serial) : Prop where
  root : t.root.Shows (.directive code Place.serialKey) s.root
  entries : ∀ key, Option.Rel (SerialEntry.Shows (.directive code key)) (t.entries.get? key)
    (s.entries.get? key)

theorem SerialTree.CompiledFrom.shows {code : String} {t : SerialTree} {s : Config.Serial}
    (h : t.CompiledFrom code s) : t.Shows code s := by
  refine ⟨SerialPlan.compile_shows h.root, fun key => ?_⟩
  cases hentry : s.entries.get? key with
  | none =>
    rw [h.none key hentry]
    exact .none
  | some entry =>
    cases entry with
    | reference name =>
      rw [h.reference key name hentry]
      exact .some (.reference name)
    | concrete directive =>
      obtain ⟨plan, hplan, hget⟩ := h.concrete key directive hentry
      rw [hget]
      exact .some (.concrete (SerialPlan.compile_shows hplan))

/-! ## Currencies -/

/-- A currency shows its configuration.  Its rules have just the keys of the denominations, each one
once, and stand in the order of their values and then of their keys. -/
structure Currency.Shows (code : String) (c : Currency) (config : Config.Currency) : Prop where
  code_eq : c.code = code
  language : c.language = config.language
  textMarks : List.Forall₂ (Matcher.IsOf .linear .leftToRight) c.textMarks config.textMarks
  keys : (c.denominations.map DenominationRule.denomination).Perm config.denominations.keys
  keys_nodup : (c.denominations.map DenominationRule.denomination).Nodup
  ordered : c.denominations.Pairwise DenominationRule.Precedes
  found : ∀ r ∈ c.denominations, c.rule? r.denomination = some r
  denominations : ∀ r ∈ c.denominations,
    ∃ d, config.denominations.get? r.denomination = some d ∧ r.Shows d
  serial : Option.Rel (SerialTree.Shows code) c.serial config.serial
  isDefined_iff : c.isDefined = true ↔ config ≠ {}

namespace Currency

variable {code : String} {config : Config.Currency} {c : Currency}

theorem CompiledFrom.keys_perm (h : c.CompiledFrom code config) :
    (c.denominations.map DenominationRule.denomination).Perm config.denominations.keys := by
  obtain ⟨rules, hrules, hsorted⟩ := h.denominations
  have hname : ∀ e ∈ rules.entries, e.2.denomination = e.1 := by
    intro e he
    obtain ⟨d, _, hcompile⟩ := (KeyMap.mem_traverse hrules).1 he
    exact (DenominationRule.compile_ok hcompile).denomination
  have hkeys : rules.values.map DenominationRule.denomination = config.denominations.keys := by
    rw [← KeyMap.keys_traverse hrules, KeyMap.keys, KeyMap.values, List.map_map]
    exact List.map_congr_left hname
  rw [hsorted, ← hkeys]
  exact (List.mergeSort_perm _ _).map _

/-- A rule whose key no other rule has is found by its key. -/
theorem rule?_of_nodup (h : (c.denominations.map DenominationRule.denomination).Nodup)
    {r : DenominationRule} (hr : r ∈ c.denominations) : c.rule? r.denomination = some r := by
  cases hfind : c.rule? r.denomination with
  | none =>
    rw [rule?, List.find?_eq_none] at hfind
    exact absurd (beq_self_eq_true _) (hfind r hr)
  | some r' =>
    have hmem : r' ∈ c.denominations := List.mem_of_find?_eq_some hfind
    have hkey : r'.denomination = r.denomination := by simpa using List.find?_some hfind
    rw [List.inj_on_of_nodup_map h hmem hr hkey]

theorem bare_iff : Recognition.Bare config ↔ config = {} := by
  constructor
  · rintro ⟨hlanguage, htextMarks, hkeys, hserial⟩
    have hdenominations : config.denominations = .empty :=
      KeyMap.ext (List.map_eq_nil_iff.1 hkeys)
    obtain ⟨language, textMarks, denominations, serial⟩ := config
    simp only at hlanguage htextMarks hdenominations hserial
    rw [hlanguage, htextMarks, hdenominations, hserial]
  · rintro rfl
    exact ⟨rfl, rfl, rfl, rfl⟩

theorem compile_shows (h : Currency.compile code config = .ok c) : c.Shows code config := by
  have hc := Currency.compile_ok h
  have hperm := hc.keys_perm
  have hnodup := hperm.nodup_iff.2 config.denominations.nodup_keys
  refine ⟨hc.code_eq, hc.language, Matcher.forall₂_linear hc.textMarks, hperm, hnodup,
    hc.denominations_ordered, fun r hr => rule?_of_nodup hnodup hr, ?_, ?_, ?_⟩
  · intro r hr
    obtain ⟨⟨key, d⟩, hd, hcompile⟩ := hc.mem_denominations.1 hr
    obtain rfl : r.denomination = key := (DenominationRule.compile_ok hcompile).denomination
    exact ⟨d, KeyMap.get?_eq_some_iff.2 hd, DenominationRule.compile_shows hcompile⟩
  · cases hserial : config.serial with
    | none =>
      rw [hc.serial_none hserial]
      exact .none
    | some s =>
      obtain ⟨t, htree, ht⟩ := hc.serial_some s hserial
      rw [ht]
      exact .some htree.shows
  · rw [← Bool.not_eq_false, hc.isDefined_eq_false_iff, bare_iff]

end Currency

/-! ## Tables -/

/-- A table that was compiled has the codes of its configuration and shows under each of them what
is configured there. -/
theorem CurrencyTable.ofConfig_shows {source : Config.Table} {t : CurrencyTable}
    (h : ofConfig source = .ok t) :
    t.source = source ∧ t.codes = source.keys ∧
      ∀ code, Option.Rel (Currency.Shows code) (t.get? code) (source.get? code) := by
  obtain ⟨htraverse, hsource⟩ := ofConfig_ok h
  refine ⟨hsource, KeyMap.keys_traverse htraverse, fun code => ?_⟩
  cases hcode : source.get? code with
  | none =>
    rw [get?, KeyMap.get?_traverse_none htraverse hcode]
    exact .none
  | some config =>
    obtain ⟨c, hc, hget⟩ := KeyMap.get?_traverse_some htraverse hcode
    rw [get?, hget]
    exact .some (Currency.compile_shows hc)

/-- A currency with two denominations of one value, for different engines, and a serial tree that is
searched from the right. -/
def Config.bothEngines : Config.Currency where
  denominations := .ofList [("5", { patterns := ["five"] }), ("+5", { dualPatterns := ["f(?=i)"] })]
  serial := some ⟨{ dualPattern := some "[0-9]+", direction := .rightToLeft },
    .ofList [("serial_5", .reference "serial_10")]⟩

theorem CurrencyTable.ofConfig_shows_bothEngines :
    ∃ t c, ofConfig (.ofList [("XTS", Config.bothEngines)]) = .ok t ∧ t.get? "XTS" = some c ∧
      c.Shows "XTS" Config.bothEngines := by
  have hcompiles : (ofConfig (.ofList [("XTS", Config.bothEngines)])).toOption.isSome = true := by
    decide +kernel
  obtain ⟨t, ht⟩ := Option.isSome_iff_exists.1 hcompiles
  have htable := eq_ok_of_toOption ht
  have hshows := (ofConfig_shows htable).2.2 "XTS"
  have hlisted : KeyMap.get? (.ofList [("XTS", Config.bothEngines)]) "XTS" =
      some Config.bothEngines := rfl
  rw [hlisted] at hshows
  cases hget : t.get? "XTS" with
  | none =>
    rw [hget] at hshows
    cases hshows
  | some c =>
    rw [hget] at hshows
    cases hshows with
    | some hc => exact ⟨t, c, htable, hget, hc⟩

end Banknote
