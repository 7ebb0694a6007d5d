import Banknote.Proofs.Recognition.Classify
import Banknote.Recognition.Process

/-!
# The answer to a request

`Answers` says what is answered to a request on a table, in terms of the configuration of the table.
Its constructors stand in the order in which a request is examined, and each one says that the ones
before it do not apply.  `process_eq_iff_answers` says that `process` on a compiled table gives just
these answers.

* The parts.  `isDefined_eq_false_iff`, `isMoney_iff`, `hasTextMarks_iff` and `resolve_eq` say what
  each test of `process` decides about the configuration.
* Admission.  `requested_cases` says which requests are admitted.
* The whole.  `process_of_answers` computes the answer in each case, and `exists_answers` says that
  there is one for every request.
-/

namespace Banknote

open Pattern (Matcher)

namespace Recognition

/-! ## What is examined -/

/-- Nothing but the code is known about a currency. -/
structure Bare (config : Config.Currency) : Prop where
  language : config.language = none
  textMarks : config.textMarks = []
  denominations : config.denominations.keys = []
  serial : config.serial = none

/-- Some label has one of the descriptions of money and a score that is large enough. -/
def ShowsMoney (s : Settings) (labels : List Label) : Prop :=
  ∃ label ∈ labels, label.description ∈ s.moneyLabels ∧ s.minLabelScore.place ≤ label.score.place

/-- Every text mark matches some token. -/
def BearsMarks (config : Config.Currency) (tokens : List String) : Prop :=
  ∀ source ∈ config.textMarks, ∃ token ∈ tokens, Finds (Matcher.linear? source) token

/-- The denomination that is worked with: the one that is given, or else the one recognized. -/
inductive Works (config : Config.Currency) (r : Request) : String → Prop
  | given (hgiven : r.denomination ≠ "") : Works config r r.denomination
  | recognized {c : Currency} (hempty : r.denomination = "")
    (hcompile : Currency.compile (normalizedCode r.currencyCode) config = .ok c) :
    Works config r (c.classify r.tokens)

/-- The directive for a denomination, with the key under which it stands, or the reason why there is
none.  A reference is followed once. -/
inductive Resolves (serial : Config.Serial) (denomination : String) :
    Except Failure (String × Config.Directive) → Prop
  | unnamed (hempty : denomination = "") :
    Resolves serial denomination (.ok (Place.serialKey, serial.root))
  | default (hne : denomination ≠ "")
    (hentry : serial.entries.get? (Config.entryKey denomination) = none) :
    Resolves serial denomination (.ok (Place.serialKey, serial.root))
  | own {directive : Config.Directive} (hne : denomination ≠ "")
    (hentry : serial.entries.get? (Config.entryKey denomination) = some (.concrete directive)) :
    Resolves serial denomination (.ok (Config.entryKey denomination, directive))
  | referred {name : String} {directive : Config.Directive} (hne : denomination ≠ "")
    (hentry : serial.entries.get? (Config.entryKey denomination) = some (.reference name))
    (hname : serial.entries.get? name = some (.concrete directive)) :
    Resolves serial denomination (.ok (name, directive))
  | chained {name other : String} (hne : denomination ≠ "")
    (hentry : serial.entries.get? (Config.entryKey denomination) = some (.reference name))
    (hname : serial.entries.get? name = some (.reference other)) :
    Resolves serial denomination (.error (.unsupportedReference name))
  | missing {name : String} (hne : denomination ≠ "")
    (hentry : serial.entries.get? (Config.entryKey denomination) = some (.reference name))
    (hname : serial.entries.get? name = none) :
    Resolves serial denomination (.error (.directiveNotDefined name))

/-- A request names a described currency of the table and, if any, one of its denominations. -/
structure Admitted (source : Config.Table) (r : Request) (config : Config.Currency) : Prop where
  listed : source.get? (normalizedCode r.currencyCode) = some config
  described : ¬ Bare config
  registered : r.denomination = "" ∨ r.denomination ∈ config.denominations.keys

/-- An admitted request shows money, and the text marks of the currency. -/
structure Genuine (source : Config.Table) (s : Settings) (r : Request)
    (config : Config.Currency) : Prop where
  admitted : Admitted source r config
  money : ShowsMoney s r.labels
  marks : BearsMarks config r.tokens

/-- The answer to a request on a table with some settings. -/
inductive Answers (source : Config.Table) (s : Settings) (r : Request) :
    Except Failure Outcome → Prop
  | unknownCurrency (hlisted : source.get? (normalizedCode r.currencyCode) = none) :
    Answers source s r (.error (.unknownCurrency (normalizedCode r.currencyCode)))
  | notConfigured {config : Config.Currency}
    (hlisted : source.get? (normalizedCode r.currencyCode) = some config) (hbare : Bare config) :
    Answers source s r (.error (.notConfigured (normalizedCode r.currencyCode)))
  | invalidDenomination {config : Config.Currency}
    (hlisted : source.get? (normalizedCode r.currencyCode) = some config) (hbare : ¬ Bare config)
    (hgiven : r.denomination ≠ "") (hkey : r.denomination ∉ config.denominations.keys) :
    Answers source s r
      (.error (.invalidDenomination (normalizedCode r.currencyCode) r.denomination))
  | notMoney {config : Config.Currency} (hadmitted : Admitted source r config)
    (hmoney : ¬ ShowsMoney s r.labels) : Answers source s r (.error .notMoney)
  | textMarkMismatch {config : Config.Currency} (hadmitted : Admitted source r config)
    (hmoney : ShowsMoney s r.labels) (hmarks : ¬ BearsMarks config r.tokens) :
    Answers source s r (.error (.textMarkMismatch (normalizedCode r.currencyCode)))
  | noSerial {config : Config.Currency} (hgenuine : Genuine source s r config)
    (hserial : config.serial = none) :
    Answers source s r (.error (.directiveNotDefined Place.serialKey))
  | unresolved {config : Config.Currency} {serial : Config.Serial} {denomination : String}
    {failure : Failure} (hgenuine : Genuine source s r config)
    (hserial : config.serial = some serial) (hworks : Works config r denomination)
    (hresolves : Resolves serial denomination (.error failure)) :
    Answers source s r (.error failure)
  | recognized {config : Config.Currency} {serial : Config.Serial} {denomination key : String}
    {directive : Config.Directive} {plan : SerialPlan} (hgenuine : Genuine source s r config)
    (hserial : config.serial = some serial) (hworks : Works config r denomination)
    (hresolves : Resolves serial denomination (.ok (key, directive)))
    (hplan : SerialPlan.compile (.directive (normalizedCode r.currencyCode) key) directive =
      .ok plan) :
    Answers source s r (.ok ⟨denomination, plan.extract r.tokens⟩)

/-- The failures that a request can have on a table that was compiled. -/
inductive RequestFailure : Failure → Prop
  | unknownCurrency (code : String) : RequestFailure (.unknownCurrency code)
  | notConfigured (code : String) : RequestFailure (.notConfigured code)
  | invalidDenomination (code denomination : String) :
    RequestFailure (.invalidDenomination code denomination)
  | notMoney : RequestFailure .notMoney
  | textMarkMismatch (code : String) : RequestFailure (.textMarkMismatch code)
  | directiveNotDefined (name : String) : RequestFailure (.directiveNotDefined name)
  | unsupportedReference (name : String) : RequestFailure (.unsupportedReference name)

/-! ## What the tests decide -/

theorem isMoney_iff (s : Settings) (labels : List Label) :
    s.isMoney labels = true ↔ ShowsMoney s labels := by
  rw [Settings.isMoney, List.any_eq_true]
  refine exists_congr fun label => and_congr_right fun _ => ?_
  rw [Settings.counts, Bool.and_eq_true, Binary.atLeast, decide_eq_true_eq,
    List.contains_iff_mem]
  exact and_comm

end Recognition

namespace Currency

open Recognition

variable {code : String} {config : Config.Currency} {c : Currency}

theorem CompiledFrom.hasTextMarks_iff (h : c.CompiledFrom code config) (tokens : List String) :
    c.hasTextMarks tokens = true ↔ BearsMarks config tokens := by
  have hall := forall_finds_iff h.textMarks (P := fun finds => ∃ token ∈ tokens, finds token)
  rw [List.forall_mem_map] at hall
  rw [BearsMarks, hall, hasTextMarks, List.all_eq_true]
  refine forall₂_congr fun mark _ => ?_
  rw [List.any_eq_true]

/-- A currency counts as described unless nothing but its code is known. -/
theorem CompiledFrom.isDefined_eq_false_iff (h : c.CompiledFrom code config) :
    c.isDefined = false ↔ Bare config := by
  have hmarks : c.textMarks = [] ↔ config.textMarks = [] := by
    rw [← List.map_eq_nil_iff (f := some), h.textMarks, List.map_eq_nil_iff]
  have hdenominations : c.denominations = [] ↔ config.denominations.keys = [] := by
    obtain ⟨rules, hrules, hsorted⟩ := h.denominations
    rw [← KeyMap.keys_traverse hrules, KeyMap.keys, List.map_eq_nil_iff, hsorted,
      ← List.length_eq_zero_iff, List.length_mergeSort, KeyMap.values, List.length_map,
      List.length_eq_zero_iff]
  have hserial : c.serial = none ↔ config.serial = none := by
    constructor
    · intro hnone
      cases hconfig : config.serial with
      | none => rfl
      | some serial =>
        obtain ⟨tree, _, htree⟩ := h.serial_some serial hconfig
        rw [hnone] at htree
        cases htree
    · exact h.serial_none
  simp only [isDefined, Bool.or_eq_false_iff, Option.isSome_eq_false_iff,
    Option.isNone_iff_eq_none, Bool.not_eq_false', List.isEmpty_iff, hmarks, hdenominations,
    hserial, h.language]
  constructor
  · rintro ⟨⟨⟨hlanguage, hmarks⟩, hdenominations⟩, hserial⟩
    exact ⟨hlanguage, hmarks, hdenominations, hserial⟩
  · rintro ⟨hlanguage, hmarks, hdenominations, hserial⟩
    exact ⟨⟨⟨hlanguage, hmarks⟩, hdenominations⟩, hserial⟩

/-- A denomination is one of the currency's own when its key is. -/
theorem CompiledFrom.rule?_isNone_iff (h : c.CompiledFrom code config) (key : String) :
    (c.rule? key).isNone = true ↔ key ∉ config.denominations.keys := by
  rw [← KeyMap.get?_eq_none_iff, Option.isNone_iff_eq_none]
  cases hd : config.denominations.get? key with
  | none => simp [h.rule?_eq_none hd]
  | some d =>
    obtain ⟨r, _, hr, _⟩ := h.exists_rule hd
    simp [hr]

end Currency

/-- A plan that is picked is the default one or an entry of the tree, and a plan is missing only
because of a reference. -/
theorem SerialTree.resolve_cases (tree : SerialTree) (denomination : Option String) :
    (∃ plan, tree.resolve denomination = .ok plan ∧
        (plan = tree.root ∨ ∃ key, tree.entries.get? key = some (.concrete plan))) ∨
      ∃ name, tree.resolve denomination = .error (.directiveNotDefined name) ∨
        tree.resolve denomination = .error (.unsupportedReference name) := by
  unfold resolve
  split
  · exact .inl ⟨_, rfl, .inl rfl⟩
  · exact .inl ⟨_, rfl, .inl rfl⟩
  · split
    · exact .inl ⟨_, rfl, .inl rfl⟩
    · rename_i hentry
      exact .inl ⟨_, rfl, .inr ⟨_, hentry⟩⟩
    · split
      · rename_i hname
        exact .inl ⟨_, rfl, .inr ⟨_, hname⟩⟩
      · exact .inr ⟨_, .inr rfl⟩
      · exact .inr ⟨_, .inl rfl⟩

namespace Recognition

theorem resolve_of_ne_empty (tree : SerialTree) {denomination : String} (hne : denomination ≠ "") :
    tree.resolve (some denomination) =
      match tree.entries.get? (Config.entryKey denomination) with
      | none => .ok tree.root
      | some (.concrete plan) => .ok plan
      | some (.reference name) =>
        match tree.entries.get? name with
        | some (.concrete plan) => .ok plan
        | some (.reference _) => .error (.unsupportedReference name)
        | none => .error (.directiveNotDefined name) := by
  rw [SerialTree.resolve.eq_def]
  split
  · rename_i heq
    cases heq
  · rename_i heq
    cases heq
    exact absurd rfl hne
  · rename_i heq
    cases heq
    rfl

/-- A compiled tree has the plan of the directive that is resolved. -/
theorem resolve_eq_ok {tree : SerialTree} {code : String} {serial : Config.Serial}
    (h : tree.CompiledFrom code serial) {denomination key : String} {directive : Config.Directive}
    (hresolves : Resolves serial denomination (.ok (key, directive))) :
    ∃ plan, SerialPlan.compile (.directive code key) directive = .ok plan ∧
      tree.resolve (some denomination) = .ok plan := by
  cases hresolves with
  | unnamed hempty =>
    subst hempty
    exact ⟨tree.root, h.root, rfl⟩
  | default hne hentry =>
    exact ⟨tree.root, h.root, by rw [resolve_of_ne_empty tree hne, h.none _ hentry]⟩
  | own hne hentry =>
    obtain ⟨plan, hplan, hget⟩ := h.concrete _ _ hentry
    exact ⟨plan, hplan, by rw [resolve_of_ne_empty tree hne, hget]⟩
  | referred hne hentry hname =>
    obtain ⟨plan, hplan, hget⟩ := h.concrete _ _ hname
    refine ⟨plan, hplan, ?_⟩
    rw [resolve_of_ne_empty tree hne, h.reference _ _ hentry]
    simp only [hget]

/-- A compiled tree has no plan for the reason why there is no directive. -/
theorem resolve_eq_error {tree : SerialTree} {code : String} {serial : Config.Serial}
    (h : tree.CompiledFrom code serial) {denomination : String} {failure : Failure}
    (hresolves : Resolves serial denomination (.error failure)) :
    tree.resolve (some denomination) = .error failure := by
  cases hresolves with
  | chained hne hentry hname =>
    rw [resolve_of_ne_empty tree hne, h.reference _ _ hentry]
    simp only [h.reference _ _ hname]
  | missing hne hentry hname =>
    rw [resolve_of_ne_empty tree hne, h.reference _ _ hentry]
    simp only [h.none _ hname]

/-- Either there is a directive for a denomination or a reason why there is none. -/
theorem exists_resolves (serial : Config.Serial) (denomination : String) :
    ∃ resolved, Resolves serial denomination resolved := by
  by_cases hempty : denomination = ""
  · exact ⟨_, .unnamed hempty⟩
  · cases hentry : serial.entries.get? (Config.entryKey denomination) with
    | none => exact ⟨_, .default hempty hentry⟩
    | some entry =>
      cases entry with
      | concrete directive => exact ⟨_, .own hempty hentry⟩
      | reference name =>
        cases hname : serial.entries.get? name with
        | none => exact ⟨_, .missing hempty hentry hname⟩
        | some entry =>
          cases entry with
          | concrete directive => exact ⟨_, .referred hempty hentry hname⟩
          | reference other => exact ⟨_, .chained hempty hentry hname⟩

/-! ## Admission -/

section

variable {source : Config.Table} {t : CurrencyTable}

theorem lookup_of_none (h : CurrencyTable.ofConfig source = .ok t) {code : String}
    (hlisted : source.get? code = none) : t.lookup code = .error (.unknownCurrency code) := by
  have hget := KeyMap.get?_traverse_none (CurrencyTable.ofConfig_ok h).1 hlisted
  rw [CurrencyTable.lookup, CurrencyTable.get?, hget]

theorem lookup_of_some (h : CurrencyTable.ofConfig source = .ok t) {code : String}
    {config : Config.Currency} (hlisted : source.get? code = some config) :
    ∃ c, Currency.compile code config = .ok c ∧ t.lookup code = .ok c := by
  obtain ⟨c, hc, hget⟩ := KeyMap.get?_traverse_some (CurrencyTable.ofConfig_ok h).1 hlisted
  exact ⟨c, hc, by rw [CurrencyTable.lookup, CurrencyTable.get?, hget]⟩

/-- An admitted request is about the compiled currency of its code. -/
theorem requested_of_admitted (h : CurrencyTable.ofConfig source = .ok t) {r : Request}
    {config : Config.Currency} (hadmitted : Admitted source r config) :
    ∃ c, Currency.compile (normalizedCode r.currencyCode) config = .ok c ∧
      requested t r = .ok c := by
  obtain ⟨c, hcompile, hlookup⟩ := lookup_of_some h hadmitted.listed
  have hc := Currency.compile_ok hcompile
  have hdefined : c.isDefined = true := by
    rw [← Bool.not_eq_false, hc.isDefined_eq_false_iff]
    exact hadmitted.described
  have hregistered : (!r.denomination.isEmpty && (c.rule? r.denomination).isNone) = false := by
    rw [Bool.and_eq_false_iff, Bool.not_eq_false', ← Bool.not_eq_true (c.rule? _).isNone,
      hc.rule?_isNone_iff, String.isEmpty_iff, Decidable.not_not]
    exact hadmitted.registered
  refine ⟨c, hcompile, ?_⟩
  simp only [requested, hlookup, hdefined, hregistered]
  rfl

/-- The currency that an admitted request is about is the one of its code. -/
theorem lookup_of_requested {r : Request} {c : Currency} (h : requested t r = .ok c) :
    t.lookup (normalizedCode r.currencyCode) = .ok c := by
  unfold requested at h
  dsimp only at h
  split at h
  · cases h
  · rename_i hlookup
    split at h
    · cases h
    · split at h
      · cases h
      · cases h
        exact hlookup

/-! ## The answer -/

theorem process_of_error {s : Settings} {r : Request} {failure : Failure}
    (h : requested t r = .error failure) : process t s r = .error failure := by
  rw [process, h]
  rfl

/-- What is answered to a request that is admitted. -/
theorem process_of_ok {s : Settings} {r : Request} {c : Currency} (h : requested t r = .ok c) :
    process t s r =
      if s.isMoney r.labels = false then .error .notMoney
      else if c.hasTextMarks r.tokens = false then .error (.textMarkMismatch c.code)
      else match c.serial with
        | none => .error (.directiveNotDefined Place.serialKey)
        | some tree => (tree.resolve (some (workingDenomination c r))).map fun plan =>
          ⟨workingDenomination c r, plan.extract r.tokens⟩ := by
  rw [process, h]
  simp only [bind, Except.bind]
  cases s.isMoney r.labels with
  | false => rfl
  | true =>
    cases c.hasTextMarks r.tokens with
    | false => rfl
    | true =>
      rw [Currency.serialTree]
      cases c.serial with
      | none => rfl
      | some tree =>
        simp only [SerialTree.extract]
        cases tree.resolve (some (workingDenomination c r)) <;> rfl

/-- The denomination that is worked with is the one that `process` takes. -/
theorem works_iff {config : Config.Currency} {r : Request} {c : Currency}
    (hcompile : Currency.compile (normalizedCode r.currencyCode) config = .ok c)
    {denomination : String} :
    Works config r denomination ↔ denomination = workingDenomination c r := by
  rw [workingDenomination]
  constructor
  · intro hworks
    cases hworks with
    | given hgiven => rw [if_neg (by simpa using hgiven)]
    | recognized hempty hcompile' =>
      rw [hcompile] at hcompile'
      cases hcompile'
      rw [if_pos (by simpa using hempty)]
  · rintro rfl
    by_cases hempty : r.denomination = ""
    · rw [if_pos (by simpa using hempty)]
      exact .recognized hempty hcompile
    · rw [if_neg (by simpa using hempty)]
      exact .given hempty

/-- What is answered to a genuine request. -/
theorem process_of_genuine (h : CurrencyTable.ofConfig source = .ok t) {s : Settings} {r : Request}
    {config : Config.Currency} (hgenuine : Genuine source s r config) :
    ∃ c, Currency.compile (normalizedCode r.currencyCode) config = .ok c ∧
      process t s r =
        match c.serial with
        | none => .error (.directiveNotDefined Place.serialKey)
        | some tree => (tree.resolve (some (workingDenomination c r))).map fun plan =>
          ⟨workingDenomination c r, plan.extract r.tokens⟩ := by
  obtain ⟨c, hcompile, hrequested⟩ := requested_of_admitted h hgenuine.admitted
  have hmoney := (isMoney_iff s r.labels).2 hgenuine.money
  have hmarks := ((Currency.compile_ok hcompile).hasTextMarks_iff r.tokens).2 hgenuine.marks
  refine ⟨c, hcompile, ?_⟩
  rw [process_of_ok hrequested, if_neg (by simp [hmoney]), if_neg (by simp [hmarks])]

/-- Each of the answers is the one that `process` gives. -/
theorem process_of_answers (h : CurrencyTable.ofConfig source = .ok t) {s : Settings} {r : Request}
    {answer : Except Failure Outcome} (hanswer : Answers source s r answer) :
    process t s r = answer := by
  cases hanswer with
  | unknownCurrency hlisted =>
    refine process_of_error ?_
    simp only [requested, lookup_of_none h hlisted]
  | notConfigured hlisted hbare =>
    obtain ⟨c, hcompile, hlookup⟩ := lookup_of_some h hlisted
    have hdefined := (Currency.compile_ok hcompile).isDefined_eq_false_iff.2 hbare
    refine process_of_error ?_
    simp only [requested, hlookup, hdefined]
    rfl
  | invalidDenomination hlisted hbare hgiven hkey =>
    obtain ⟨c, hcompile, hlookup⟩ := lookup_of_some h hlisted
    have hc := Currency.compile_ok hcompile
    have hdefined : c.isDefined = true := by
      rwa [← Bool.not_eq_false, hc.isDefined_eq_false_iff]
    have hempty : r.denomination.isEmpty = false := by simpa using hgiven
    refine process_of_error ?_
    simp only [requested, hlookup, hdefined, hempty, (hc.rule?_isNone_iff _).2 hkey]
    rfl
  | notMoney hadmitted hmoney =>
    obtain ⟨c, _, hrequested⟩ := requested_of_admitted h hadmitted
    rw [← isMoney_iff, Bool.not_eq_true] at hmoney
    rw [process_of_ok hrequested, if_pos hmoney]
  | textMarkMismatch hadmitted hmoney hmarks =>
    obtain ⟨c, hcompile, hrequested⟩ := requested_of_admitted h hadmitted
    have hc := Currency.compile_ok hcompile
    rw [← isMoney_iff] at hmoney
    rw [← hc.hasTextMarks_iff, Bool.not_eq_true] at hmarks
    rw [process_of_ok hrequested, if_neg (by simp [hmoney]), if_pos hmarks, hc.code_eq]
  | noSerial hgenuine hserial =>
    obtain ⟨c, hcompile, hprocess⟩ := process_of_genuine h hgenuine
    rw [hprocess, (Currency.compile_ok hcompile).serial_none hserial]
  | unresolved hgenuine hserial hworks hresolves =>
    obtain ⟨c, hcompile, hprocess⟩ := process_of_genuine h hgenuine
    obtain ⟨tree, htree, hsome⟩ := (Currency.compile_ok hcompile).serial_some _ hserial
    rw [hprocess, hsome]
    simp only [← (works_iff hcompile).1 hworks, resolve_eq_error htree hresolves]
    rfl
  | recognized hgenuine hserial hworks hresolves hplan =>
    obtain ⟨c, hcompile, hprocess⟩ := process_of_genuine h hgenuine
    obtain ⟨tree, htree, hsome⟩ := (Currency.compile_ok hcompile).serial_some _ hserial
    obtain ⟨plan, hplan', hresolve⟩ := resolve_eq_ok htree hresolves
    rw [hplan] at hplan'
    cases hplan'
    rw [hprocess, hsome]
    simp only [← (works_iff hcompile).1 hworks, hresolve]
    rfl

/-- There is an answer to every request. -/
theorem exists_answers (h : CurrencyTable.ofConfig source = .ok t) (s : Settings) (r : Request) :
    ∃ answer, Answers source s r answer := by
  cases hlisted : source.get? (normalizedCode r.currencyCode) with
  | none => exact ⟨_, .unknownCurrency hlisted⟩
  | some config =>
    by_cases hbare : Bare config
    · exact ⟨_, .notConfigured hlisted hbare⟩
    by_cases hregistered : r.denomination = "" ∨ r.denomination ∈ config.denominations.keys
    case neg =>
      rw [not_or] at hregistered
      exact ⟨_, .invalidDenomination hlisted hbare hregistered.1 hregistered.2⟩
    have hadmitted : Admitted source r config := ⟨hlisted, hbare, hregistered⟩
    by_cases hmoney : ShowsMoney s r.labels
    case neg => exact ⟨_, .notMoney hadmitted hmoney⟩
    by_cases hmarks : BearsMarks config r.tokens
    case neg => exact ⟨_, .textMarkMismatch hadmitted hmoney hmarks⟩
    have hgenuine : Genuine source s r config := ⟨hadmitted, hmoney, hmarks⟩
    cases hserial : config.serial with
    | none => exact ⟨_, .noSerial hgenuine hserial⟩
    | some serial =>
      obtain ⟨c, hcompile, _⟩ := lookup_of_some h hlisted
      have hworks := (works_iff hcompile).2 rfl
      obtain ⟨resolved, hresolves⟩ := exists_resolves serial (workingDenomination c r)
      cases resolved with
      | error failure => exact ⟨_, .unresolved hgenuine hserial hworks hresolves⟩
      | ok found =>
        obtain ⟨tree, htree, _⟩ := (Currency.compile_ok hcompile).serial_some serial hserial
        obtain ⟨plan, hplan, _⟩ := resolve_eq_ok htree hresolves
        exact ⟨_, .recognized hgenuine hserial hworks hresolves hplan⟩

theorem process_eq_iff (h : CurrencyTable.ofConfig source = .ok t) {s : Settings} {r : Request}
    {answer : Except Failure Outcome} : process t s r = answer ↔ Answers source s r answer := by
  constructor
  · rintro rfl
    obtain ⟨answer, hanswer⟩ := exists_answers h s r
    rwa [process_of_answers h hanswer]
  · exact process_of_answers h

/-- A directive that cannot be resolved is not defined or refers to a reference. -/
theorem Resolves.requestFailure {serial : Config.Serial} {denomination : String} {failure : Failure}
    (h : Resolves serial denomination (.error failure)) : RequestFailure failure := by
  cases h with
  | chained _ _ _ => exact .unsupportedReference _
  | missing _ _ _ => exact .directiveNotDefined _

theorem Answers.requestFailure {s : Settings} {r : Request} {failure : Failure}
    (h : Answers source s r (.error failure)) : RequestFailure failure := by
  cases h with
  | unknownCurrency _ => exact .unknownCurrency _
  | notConfigured _ _ => exact .notConfigured _
  | invalidDenomination _ _ _ _ => exact .invalidDenomination _ _
  | notMoney _ _ => exact .notMoney
  | textMarkMismatch _ _ _ => exact .textMarkMismatch _
  | noSerial _ _ => exact .directiveNotDefined _
  | unresolved _ _ _ hresolves => exact hresolves.requestFailure

/-- The denomination that is worked with is empty or one of the currency's own. -/
theorem Works.empty_or_mem {config : Config.Currency} {r : Request} {denomination : String}
    (h : Works config r denomination) (hadmitted : Admitted source r config) :
    denomination = "" ∨ denomination ∈ config.denominations.keys := by
  cases h with
  | given _ => exact hadmitted.registered
  | recognized _ hcompile =>
    rcases (Currency.compile_ok hcompile).classify_cases r.tokens with ⟨hempty, _⟩ | ⟨d, hd, _⟩
    · exact .inl hempty
    · exact .inr (List.mem_map_of_mem (f := Prod.fst) (KeyMap.get?_eq_some_iff.1 hd))

/-- Labels that agree on whether they show money get the same answer. -/
theorem process_congr_labels {s : Settings} {r : Request} {labels : List Label}
    (h : ShowsMoney s labels ↔ ShowsMoney s r.labels) :
    process t s { r with labels } = process t s r := by
  have hmoney : s.isMoney labels = s.isMoney r.labels := by
    rw [Bool.eq_iff_iff, isMoney_iff, isMoney_iff]
    exact h
  simp only [process, hmoney]
  rfl

/-- On a table that was compiled, a request gets the answer that stands first in `Answers` among
those that apply.  A failure is one that a request can have, the denomination of an outcome is empty
or one of the currency's own, and the labels only matter for whether they show money. -/
theorem process_eq_iff_answers (h : CurrencyTable.ofConfig source = .ok t) (s : Settings)
    (r : Request) :
    (∀ answer, process t s r = answer ↔ Answers source s r answer) ∧
      (∀ failure, process t s r = .error failure → RequestFailure failure) ∧
      (∀ outcome, process t s r = .ok outcome → outcome.denomination = "" ∨
        ∃ config, source.get? (normalizedCode r.currencyCode) = some config ∧
          outcome.denomination ∈ config.denominations.keys) ∧
      ∀ labels, (ShowsMoney s labels ↔ ShowsMoney s r.labels) →
        process t s { r with labels } = process t s r := by
  refine ⟨fun _ => process_eq_iff h, fun failure hfailure => ?_, fun outcome houtcome => ?_,
    fun _ => process_congr_labels⟩
  · exact ((process_eq_iff h).1 hfailure).requestFailure
  · cases (process_eq_iff h).1 houtcome with
    | recognized hgenuine _ hworks _ _ =>
      have hadmitted := hgenuine.admitted
      exact (hworks.empty_or_mem hadmitted).imp_right fun hkey => ⟨_, hadmitted.listed, hkey⟩

end

/-- A currency with one denomination. -/
def fiveConfig : Config.Currency where
  textMarks := ["bank"]
  denominations := .ofList [("5", { patterns := ["five"] })]
  serial := some ⟨{ pattern := some "[0-9]+" }, .empty⟩

/-- A request that gives the denomination. -/
def fiveRequest : Request where
  currencyCode := " xts "
  denomination := "5"
  tokens := ["bank", "42"]
  labels := [⟨"money", half⟩]

theorem process_eq_iff_answers_five :
    ∃ t, CurrencyTable.ofConfig (.ofList [("XTS", fiveConfig)]) = .ok t ∧
      process t {} fiveRequest = .ok ⟨"5", "42"⟩ := by
  have hcompiles : (CurrencyTable.ofConfig (.ofList [("XTS", fiveConfig)])).toOption.isSome =
      true := by decide +kernel
  obtain ⟨t, ht⟩ := Option.isSome_iff_exists.1 hcompiles
  have htable := eq_ok_of_toOption ht
  have hmarks : BearsMarks fiveConfig fiveRequest.tokens := by
    intro source hsource
    obtain rfl : source = "bank" := by simpa [fiveConfig] using hsource
    have hany : (Matcher.linear? "bank").any (·.isMatch "bank") = true := by decide +kernel
    exact ⟨"bank", by decide, (Option.any_eq_true _ _).1 hany⟩
  have hbare : ¬ Bare fiveConfig := fun hbare => by simpa [fiveConfig] using hbare.textMarks
  have hmoney : ShowsMoney {} fiveRequest.labels :=
    ⟨⟨"money", half⟩, List.mem_singleton.2 rfl, by decide, Int.le_refl _⟩
  have hgenuine : Genuine (.ofList [("XTS", fiveConfig)]) {} fiveRequest fiveConfig :=
    ⟨⟨rfl, hbare, .inr (by decide)⟩, hmoney, hmarks⟩
  obtain ⟨plan, hplan, hserial⟩ := Option.map_eq_some_iff.1
    (show (SerialPlan.compile (.directive "XTS" Place.serialKey)
      { pattern := some "[0-9]+" }).toOption.map (·.extract fiveRequest.tokens) = some "42" by
        decide +kernel)
  have hanswers := Answers.recognized hgenuine rfl (.given (by decide)) (.default (by decide) rfl)
    (eq_ok_of_toOption hplan)
  rw [hserial] at hanswers
  exact ⟨t, htable, ((process_eq_iff_answers htable {} fiveRequest).1 _).2 hanswers⟩

end Recognition

end Banknote
