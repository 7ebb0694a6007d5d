import Banknote.Proofs.Currency.Compile

/-!
# Which configurations are accepted

A configuration is accepted when it meets its requirements.  They are listed in the order in which
they are examined, each with the failure that reports it.

* `Requirement`, `FirstViolated` and `Checks`.  `Checks x rs` says that the computation `x` examines
  the requirements `rs` in order and stops at the first one that does not hold.
* What the parts of a configuration must satisfy, once as a condition on the whole part
  (`Config.Currency.Acceptable` and its parts) and once as a list (`Config.Table.requirements` and
  its parts).
* One `checks` lemma for each function that compiles, and the result `ofConfig_accepts`.

Which patterns compile is up to `Pattern.Program.compile?`; the constructs that it refuses though an
engine may know them are named at `Pattern.Reader.readPattern`.
-/

namespace Banknote

open Pattern (Matcher)

/-! ## Requirements -/

/-- Something that must hold, and the failure if it does not. -/
structure Requirement where
  holds : Prop
  failure : Failure

/-- The failure of the first requirement that does not hold. -/
def FirstViolated (rs : List Requirement) (failure : Failure) : Prop :=
  ∃ before r after, rs = before ++ r :: after ∧ (∀ q ∈ before, q.holds) ∧ ¬ r.holds ∧
    r.failure = failure

namespace FirstViolated

variable {rs rs' : List Requirement} {failure failure' : Failure}

theorem not_forall (h : FirstViolated rs failure) : ¬ ∀ r ∈ rs, r.holds := by
  obtain ⟨before, r, after, rfl, _, hr, _⟩ := h
  intro hall
  exact hr (hall r (List.mem_append_right _ List.mem_cons_self))

theorem append_right (h : FirstViolated rs failure) : FirstViolated (rs ++ rs') failure := by
  obtain ⟨before, r, after, rfl, hbefore, hr, hfailure⟩ := h
  exact ⟨before, r, after ++ rs', by simp, hbefore, hr, hfailure⟩

theorem append_left (hrs : ∀ r ∈ rs, r.holds) (h : FirstViolated rs' failure) :
    FirstViolated (rs ++ rs') failure := by
  obtain ⟨before, r, after, rfl, hbefore, hr, hfailure⟩ := h
  refine ⟨rs ++ before, r, after, by simp, ?_, hr, hfailure⟩
  intro q hq
  rcases List.mem_append.1 hq with hq | hq
  · exact hrs q hq
  · exact hbefore q hq

/-- There is just one first requirement that does not hold. -/
theorem unique (h : FirstViolated rs failure) (h' : FirstViolated rs failure') :
    failure = failure' := by
  obtain ⟨before, r, after, rfl, hbefore, hr, rfl⟩ := h
  obtain ⟨before', r', after', heq, hbefore', hr', rfl⟩ := h'
  rcases List.append_eq_append_iff.1 heq with ⟨more, rfl, hrest⟩ | ⟨more, rfl, hrest⟩
  · cases more with
    | nil =>
      cases hrest
      rfl
    | cons q more =>
      cases hrest
      exact absurd (hbefore' r (by simp)) hr
  · cases more with
    | nil =>
      cases hrest
      rfl
    | cons q more =>
      cases hrest
      exact absurd (hbefore r' (by simp)) hr'

end FirstViolated

/-- A computation examines requirements in order: it succeeds only if all of them hold, and it fails
with the first one that does not. -/
structure Checks {α : Type} (x : Except Failure α) (rs : List Requirement) : Prop where
  holds_of_ok : ∀ a, x = .ok a → ∀ r ∈ rs, r.holds
  firstViolated : ∀ failure, x = .error failure → FirstViolated rs failure

namespace Checks

variable {α β : Type} {x : Except Failure α} {rs rs' : List Requirement} {r : Requirement}

theorem exists_ok_iff (h : Checks x rs) : (∃ a, x = .ok a) ↔ ∀ r ∈ rs, r.holds := by
  constructor
  · rintro ⟨a, ha⟩
    exact h.holds_of_ok a ha
  · intro hall
    cases hx : x with
    | ok a => exact ⟨a, rfl⟩
    | error failure => exact absurd hall (h.firstViolated failure hx).not_forall

theorem eq_error_iff (h : Checks x rs) (failure : Failure) :
    x = .error failure ↔ FirstViolated rs failure := by
  constructor
  · exact h.firstViolated failure
  · intro hviolated
    cases hx : x with
    | ok a => exact absurd (h.holds_of_ok a hx) hviolated.not_forall
    | error failure' => rw [(h.firstViolated failure' hx).unique hviolated]

theorem ok (a : α) : Checks (.ok a) [] where
  holds_of_ok _ _ r hr := by cases hr
  firstViolated _ h := by cases h

theorem cons (hr : r.holds) (h : Checks x rs) : Checks x (r :: rs) where
  holds_of_ok a ha := by
    rw [List.forall_mem_cons]
    exact ⟨hr, h.holds_of_ok a ha⟩
  firstViolated failure hx := by
    have hfirst : ∀ q ∈ [r], q.holds := by
      rw [List.forall_mem_singleton]
      exact hr
    exact (h.firstViolated failure hx).append_left hfirst

theorem error (hr : ¬ r.holds) : Checks (.error r.failure : Except Failure α) (r :: rs) where
  holds_of_ok a ha := by cases ha
  firstViolated failure hx := by
    cases hx
    exact ⟨[], r, rs, rfl, by simp, hr, rfl⟩

/-- What comes second is examined if nothing is wrong with what comes first. -/
theorem bind {f : α → Except Failure β} (h : Checks x rs)
    (hf : ∀ a, x = .ok a → Checks (f a) rs') : Checks (x >>= f) (rs ++ rs') := by
  cases hx : x with
  | error failure =>
    refine ⟨fun b hb => ?_, fun failure' hfailure => ?_⟩
    · cases hb
    · cases hfailure
      exact (h.firstViolated failure hx).append_right
  | ok a =>
    have hrs := h.holds_of_ok a hx
    have hrs' := hf a hx
    refine ⟨fun b hb q hq => ?_, fun failure hfailure => ?_⟩
    · rcases List.mem_append.1 hq with hq | hq
      · exact hrs q hq
      · exact hrs'.holds_of_ok b hb q hq
    · exact (hrs'.firstViolated failure hfailure).append_left hrs

theorem bind_ok {f : α → Except Failure β} (h : Checks x rs) (hf : ∀ a, Checks (f a) []) :
    Checks (x >>= f) rs := by
  have hbind := h.bind fun a _ => hf a
  rwa [List.append_nil] at hbind

theorem map {f : α → β} (h : Checks x rs) : Checks (x.map f) rs := by
  cases x with
  | error failure =>
    refine ⟨fun b hb => ?_, fun failure' hfailure => ?_⟩
    · cases hb
    · cases hfailure
      exact h.firstViolated failure rfl
  | ok a =>
    refine ⟨fun b hb => h.holds_of_ok a rfl, fun failure hfailure => ?_⟩
    cases hfailure

theorem compileAll {compile : α → Except Failure β} {required : α → Requirement}
    (h : ∀ a, Checks (compile a) [required a]) (l : List α) :
    Checks (Banknote.compileAll compile l) (l.map required) := by
  induction l with
  | nil => exact ok []
  | cons a l ih =>
    unfold Banknote.compileAll
    exact (h a).bind fun b _ => ih.bind_ok fun bs => ok (b :: bs)

theorem traverseEntries {f : String → α → Except Failure β}
    {required : String → α → List Requirement} (h : ∀ k a, Checks (f k a) (required k a))
    (l : List (String × α)) :
    Checks (KeyMap.traverseEntries f l) (l.flatMap fun e => required e.1 e.2) := by
  induction l with
  | nil => exact ok []
  | cons e l ih =>
    obtain ⟨k, a⟩ := e
    have hsteps : KeyMap.traverseEntries f ((k, a) :: l) =
        f k a >>= fun b => KeyMap.traverseEntries f l >>= fun bs => .ok ((k, b) :: bs) := by
      rw [KeyMap.traverseEntries]
      cases f k a with
      | error _ => rfl
      | ok b => cases KeyMap.traverseEntries f l <;> rfl
    rw [hsteps, List.flatMap_cons]
    exact (h k a).bind fun b _ => ih.bind_ok fun bs => ok ((k, b) :: bs)

theorem traverse {f : String → α → Except Failure β} {required : String → α → List Requirement}
    (h : ∀ k a, Checks (f k a) (required k a)) (m : KeyMap α) :
    Checks (m.traverse f) (m.entries.flatMap fun e => required e.1 e.2) := by
  have hentries := traverseEntries h m.entries
  refine ⟨fun m' hm' => hentries.holds_of_ok _ (KeyMap.traverse_ok hm'), ?_⟩
  intro failure hfailure
  unfold KeyMap.traverse at hfailure
  split at hfailure
  · rename_i failure' heq
    cases hfailure
    exact hentries.firstViolated failure heq
  · cases hfailure

end Checks

/-! ## Numerals and colours -/

/-- Digits, with a plus sign in front or without, of a value below a limit. -/
def IsNumeral (limit : Nat) (text : List Char) : Prop :=
  ∃ digits, (text = digits ∨ text = '+' :: digits) ∧ digits ≠ [] ∧
    (∀ c ∈ digits, c.isDigit = true) ∧ Nat.ofDigitChars 10 digits 0 < limit

/-- Three channels between commas, each perhaps with blanks around it. -/
def IsColorKey (key : String) : Prop :=
  ∃ red green blue, key.toList.splitOn ',' = [red, green, blue] ∧
    ∀ channel ∈ [red, green, blue], IsNumeral UInt8.size (Text.trim channel)

theorem foldl_eq_ofDigitChars (digits : List Char) :
    digits.foldl (fun n c => n * 10 + (c.toNat - '0'.toNat)) 0 = Nat.ofDigitChars 10 digits 0 := by
  have hcomm : (fun (n : Nat) (c : Char) => n * 10 + (c.toNat - '0'.toNat)) =
      fun n c => 10 * n + (c.toNat - '0'.toNat) := by
    funext n c
    rw [Nat.mul_comm]
  rw [hcomm, Nat.ofDigitChars_eq_foldl]

/-- A numeral: digits, with a plus sign in front or without, that write a number. -/
def Writes (text : List Char) (n : Nat) : Prop :=
  ∃ digits, (text = digits ∨ text = '+' :: digits) ∧ digits ≠ [] ∧
    (∀ c ∈ digits, c.isDigit = true) ∧ Nat.ofDigitChars 10 digits 0 = n

theorem naturalBelow?_eq_some_iff {limit n : Nat} {text : List Char} :
    naturalBelow? limit text = some n ↔ Writes text n ∧ n < limit := by
  have hdigits : ∀ digits : List Char,
      (if !digits.isEmpty && digits.all Char.isDigit && Nat.ofDigitChars 10 digits 0 < limit then
          some (Nat.ofDigitChars 10 digits 0) else none) = some n ↔
        (digits ≠ [] ∧ (∀ c ∈ digits, c.isDigit = true) ∧ Nat.ofDigitChars 10 digits 0 = n) ∧
          n < limit := by
    intro digits
    rw [Option.ite_none_right_eq_some, Option.some_inj]
    constructor
    · rintro ⟨hconditions, rfl⟩
      simpa [and_assoc] using hconditions
    · rintro ⟨⟨hsome, hall, rfl⟩, hlt⟩
      simpa [and_assoc] using And.intro hsome (And.intro hall hlt)
  unfold naturalBelow? Writes
  simp only [foldl_eq_ofDigitChars]
  rw [hdigits]
  refine and_congr_left fun _ => ?_
  split
  · rename_i rest
    constructor
    · exact fun h => ⟨rest, .inr rfl, h⟩
    · rintro ⟨digits, rfl | heq, h⟩
      · exact absurd (h.2.1 '+' List.mem_cons_self) (by decide)
      · cases heq
        exact h
  · rename_i hplus
    constructor
    · exact fun h => ⟨text, .inl rfl, h⟩
    · rintro ⟨digits, rfl | rfl, h⟩
      · exact h
      · exact absurd rfl (hplus digits)

theorem naturalBelow?_isSome_iff {limit : Nat} {text : List Char} :
    (naturalBelow? limit text).isSome = true ↔ IsNumeral limit text := by
  rw [Option.isSome_iff_exists]
  constructor
  · rintro ⟨n, hn⟩
    obtain ⟨⟨digits, htext, hsome, hall, rfl⟩, hlt⟩ := naturalBelow?_eq_some_iff.1 hn
    exact ⟨digits, htext, hsome, hall, hlt⟩
  · rintro ⟨digits, htext, hsome, hall, hlt⟩
    exact ⟨_, naturalBelow?_eq_some_iff.2 ⟨⟨digits, htext, hsome, hall, rfl⟩, hlt⟩⟩

theorem commaParts_eq_splitOn (key : List Char) : commaParts key = key.splitOn ',' := by
  induction key with
  | nil => rfl
  | cons c rest ih =>
    unfold commaParts
    rw [List.splitOn, List.splitOnP_cons_eq_if_modifyHead, ← List.splitOn]
    by_cases hc : c = ','
    · simp [hc, ih]
    · rw [if_neg hc, if_neg (by simpa using hc), ih]
      cases hrest : rest.splitOn ',' with
      | nil => exact absurd hrest (List.splitOnP_ne_nil _ _)
      | cons part parts => rfl

theorem channel?_isSome_iff {text : List Char} :
    (channel? text).isSome = true ↔ IsNumeral UInt8.size (Text.trim text) := by
  unfold channel?
  rw [Option.isSome_map]
  exact naturalBelow?_isSome_iff

theorem ofKey?_isSome_iff {key : String} {weight : Binary .double} :
    (ColorHint.ofKey? key weight).isSome = true ↔ IsColorKey key := by
  unfold ColorHint.ofKey? IsColorKey
  rw [commaParts_eq_splitOn]
  simp only [← channel?_isSome_iff, List.forall_mem_cons, Option.isSome_iff_exists]
  constructor
  · rintro ⟨hint, h⟩
    split at h
    · rename_i red green blue hparts
      obtain ⟨r, rest, hkey, hred, hparts⟩ := List.map_eq_cons_iff.1 hparts
      obtain ⟨g, rest, rfl, hgreen, hparts⟩ := List.map_eq_cons_iff.1 hparts
      obtain ⟨b, rest, rfl, hblue, hparts⟩ := List.map_eq_cons_iff.1 hparts
      obtain rfl := List.map_eq_nil_iff.1 hparts
      exact ⟨r, g, b, hkey, ⟨red, hred⟩, ⟨green, hgreen⟩, ⟨blue, hblue⟩, by simp⟩
    · cases h
  · rintro ⟨r, g, b, hkey, ⟨red, hred⟩, ⟨green, hgreen⟩, ⟨blue, hblue⟩, _⟩
    refine ⟨⟨red, green, blue, weight⟩, ?_⟩
    rw [hkey]
    simp only [List.map_cons, List.map_nil, hred, hgreen, hblue]

/-! ## What must hold -/

/-- A pattern compiles. -/
def Requirement.pattern (place : Place) (compile : String → Option Matcher) (source : String) :
    Requirement :=
  ⟨(compile source).isSome = true, .invalidPattern place source⟩

namespace Config

/-- The key of a denomination is a numeral, and it has patterns for just one engine. -/
structure Denomination.Acceptable (key : String) (d : Denomination) : Prop where
  key : IsNumeral UInt64.size key.toList
  patterns : (d.patterns ≠ [] ∧ d.dualPatterns = []) ∨ (d.patterns = [] ∧ d.dualPatterns ≠ [])
  linear : ∀ p ∈ d.patterns, (Matcher.linear? p).isSome = true
  backtracking : ∀ p ∈ d.dualPatterns, (Matcher.backtracking? p .leftToRight).isSome = true
  fuzzyIgnore : ∀ p ∈ d.fuzzyIgnore, (Matcher.linear? p).isSome = true
  colorHints : ∀ key ∈ d.colorHints.keys, IsColorKey key

/-- What a denomination must satisfy, in the order in which it is examined. -/
def Denomination.requirements (code key : String) (d : Denomination) : List Requirement :=
  let place := Place.denomination code key
  [⟨IsNumeral UInt64.size key.toList, .invalidConfig (.keyNotNumeric place)⟩] ++
    ([⟨d.patterns ≠ [] ∨ d.dualPatterns ≠ [], .invalidConfig (.noPatterns place)⟩,
      ⟨d.patterns = [] ∨ d.dualPatterns = [], .invalidConfig (.twoPatternKinds place)⟩] ++
      d.patterns.map (.pattern place Matcher.linear?) ++
      d.dualPatterns.map (.pattern place (Matcher.backtracking? · .leftToRight))) ++
    d.fuzzyIgnore.map (.pattern place Matcher.linear?) ++
    d.colorHints.keys.map fun key => ⟨IsColorKey key, .invalidConfig (.badColorHint place key)⟩

/-- A directive has just one pattern, which has the group that is picked. -/
structure Directive.Acceptable (d : Directive) : Prop where
  onePattern : d.pattern.isSome ≠ d.dualPattern.isSome
  matcher : ∃ m, d.matcher? = some m ∧ d.captureGroup < m.groupCount
  tokensToRemove : ∀ p ∈ d.tokensToRemove, (Matcher.linear? p).isSome = true
  resultFilters : ∀ name ∈ d.resultFilters, name = "remove-whitespace" ∨ name = "remove-spaces"
  matchFilters : ∀ name ∈ d.matchFilters, name = "remove-empty"

/-- What a directive must satisfy, in the order in which it is examined. -/
def Directive.requirements (place : Place) (d : Directive) : List Requirement :=
  ([⟨d.pattern.isSome ≠ d.dualPattern.isSome, .invalidConfig (.notOnePattern place)⟩] ++
    d.pattern.toList.map (.pattern place Matcher.linear?) ++
    d.dualPattern.toList.map (.pattern place (Matcher.backtracking? · d.direction))) ++
  (d.matcher?.toList.map fun m => ⟨d.captureGroup < m.groupCount,
    .invalidConfig (.noSuchGroup place d.captureGroup (m.groupCount - 1) m.source)⟩) ++
  d.tokensToRemove.map (.pattern place Matcher.linear?) ++
  (d.resultFilters.map fun name => ⟨name = "remove-whitespace" ∨ name = "remove-spaces",
    .invalidConfig (.unknownResultFilter name)⟩) ++
  d.matchFilters.map fun name => ⟨name = "remove-empty",
    .invalidConfig (.unknownMatchFilter name)⟩

/-- What an entry must satisfy; of a reference nothing is asked. -/
def Entry.requirements (place : Place) : Entry → List Requirement
  | .concrete directive => directive.requirements place
  | .reference _ => []

/-- The default directive and every entry that is a directive of its own are acceptable. -/
structure Serial.Acceptable (s : Serial) : Prop where
  root : s.root.Acceptable
  entries : ∀ key directive, s.entries.get? key = some (.concrete directive) →
    directive.Acceptable

/-- What a serial tree must satisfy, in the order in which it is examined. -/
def Serial.requirements (code : String) (s : Serial) : List Requirement :=
  s.root.requirements (.directive code Place.serialKey) ++
    s.entries.entries.flatMap fun e => e.2.requirements (.directive code e.1)

/-- The text marks, the denominations and the serial tree are acceptable. -/
structure Currency.Acceptable (c : Currency) : Prop where
  textMarks : ∀ p ∈ c.textMarks, (Matcher.linear? p).isSome = true
  denominations : ∀ key d, c.denominations.get? key = some d → d.Acceptable key
  serial : ∀ s, c.serial = some s → s.Acceptable

/-- What a currency must satisfy, in the order in which it is examined. -/
def Currency.requirements (code : String) (c : Currency) : List Requirement :=
  c.textMarks.map (.pattern (.textMarks code) Matcher.linear?) ++
    (c.denominations.entries.flatMap fun e => e.2.requirements code e.1) ++
    c.serial.toList.flatMap (·.requirements code)

/-- What a table must satisfy, in the order in which it is examined. -/
def Table.requirements (source : Table) : List Requirement :=
  source.entries.flatMap fun e => e.2.requirements e.1

end Config

/-! ## What is examined -/

namespace Checks

variable {place : Place}

/-- A failure config reports the requirement that it is made for. -/
theorem failConfig {α : Type} {fault : ConfigFault} {condition : Prop} {rs : List Requirement}
    (h : ¬ condition) :
    Checks (Banknote.failConfig fault : Except Failure α)
      (⟨condition, .invalidConfig fault⟩ :: rs) :=
  error (r := ⟨condition, .invalidConfig fault⟩) h

theorem pattern (compile : String → Option Matcher) (source : String) :
    Checks (orInvalid place source (compile source)) [.pattern place compile source] := by
  cases hm : compile source with
  | none => exact error (r := .pattern place compile source) (by simp [Requirement.pattern, hm])
  | some m => exact (ok m).cons (by simp [Requirement.pattern, hm])

theorem linear (source : String) :
    Checks (compileLinear place source) [.pattern place Matcher.linear? source] :=
  pattern _ source

theorem backtracking (direction : Pattern.Direction) (source : String) :
    Checks (compileBacktracking place direction source)
      [.pattern place (Matcher.backtracking? · direction) source] :=
  pattern (Matcher.backtracking? · direction) source

theorem colorHint (e : String × Binary .double) :
    Checks (compileColorHint place e)
      [⟨IsColorKey e.1, .invalidConfig (.badColorHint place e.1)⟩] := by
  obtain ⟨key, weight⟩ := e
  have hkey : (ColorHint.ofKey? key weight).isSome = true ↔ IsColorKey key := ofKey?_isSome_iff
  unfold compileColorHint
  dsimp only
  split
  · rename_i hint hsome
    rw [hsome] at hkey
    exact (ok hint).cons (hkey.1 rfl)
  · rename_i hnone
    rw [hnone] at hkey
    exact failConfig fun h => absurd (hkey.2 h) (by simp)

theorem resultFilter (name : String) :
    Checks (compileResultFilter name)
      [⟨name = "remove-whitespace" ∨ name = "remove-spaces",
        .invalidConfig (.unknownResultFilter name)⟩] := by
  unfold compileResultFilter ResultFilter.ofName?
  split
  · rename_i hname
    split at hname
    · exact (ok _).cons (.inl rfl)
    · exact (ok _).cons (.inr rfl)
    · cases hname
  · rename_i hname
    split at hname
    · cases hname
    · cases hname
    · rename_i hwhitespace hspaces
      exact failConfig (not_or.2 ⟨hwhitespace, hspaces⟩)

theorem matchFilter (name : String) :
    Checks (compileMatchFilter name)
      [⟨name = "remove-empty", .invalidConfig (.unknownMatchFilter name)⟩] := by
  unfold compileMatchFilter MatchFilter.ofName?
  split
  · rename_i hname
    split at hname
    · exact (ok _).cons rfl
    · cases hname
  · rename_i hname
    split at hname
    · cases hname
    · rename_i hempty
      exact failConfig hempty

/-- The patterns of a denomination: there are some, for one engine, and they compile. -/
theorem denominationPatterns (d : Config.Denomination) :
    Checks (compilePatterns place d)
      ([⟨d.patterns ≠ [] ∨ d.dualPatterns ≠ [], .invalidConfig (.noPatterns place)⟩,
        ⟨d.patterns = [] ∨ d.dualPatterns = [], .invalidConfig (.twoPatternKinds place)⟩] ++
        d.patterns.map (.pattern place Matcher.linear?) ++
        d.dualPatterns.map (.pattern place (Matcher.backtracking? · .leftToRight))) := by
  unfold compilePatterns
  cases hpatterns : d.patterns with
  | nil =>
    cases hdual : d.dualPatterns with
    | nil => exact failConfig (by simp)
    | cons p ps =>
      exact ((compileAll (backtracking .leftToRight) (p :: ps)).cons (by simp)).cons (by simp)
  | cons p ps =>
    cases hdual : d.dualPatterns with
    | nil =>
      rw [List.map_nil, List.append_nil]
      exact ((compileAll linear (p :: ps)).cons (by simp)).cons (by simp)
    | cons q qs => exact (failConfig (by simp)).cons (by simp)

theorem denomination (code key : String) (d : Config.Denomination) :
    Checks (DenominationRule.compile code key d) (d.requirements code key) := by
  have hkey : (naturalBelow? (1 <<< 64) key.toList).isSome = true ↔
      IsNumeral UInt64.size key.toList := naturalBelow?_isSome_iff
  unfold DenominationRule.compile Config.Denomination.requirements
  dsimp only
  rw [List.append_assoc, List.append_assoc]
  split
  · rename_i value hvalue
    rw [hvalue] at hkey
    refine cons (hkey.1 rfl) ?_
    refine (denominationPatterns d).bind fun patterns _ => ?_
    refine (compileAll linear d.fuzzyIgnore).bind fun fuzzyIgnore _ => ?_
    rw [KeyMap.keys, List.map_map]
    exact (compileAll colorHint d.colorHints.entries).bind_ok fun colorHints => ok _
  · rename_i hvalue
    rw [hvalue] at hkey
    exact failConfig fun h => absurd (hkey.2 h) (by simp)

/-- The pattern of a directive: there is just one, and it compiles. -/
theorem directivePattern (d : Config.Directive) :
    Checks (compilePattern place d)
      ([⟨d.pattern.isSome ≠ d.dualPattern.isSome, .invalidConfig (.notOnePattern place)⟩] ++
        d.pattern.toList.map (.pattern place Matcher.linear?) ++
        d.dualPattern.toList.map (.pattern place (Matcher.backtracking? · d.direction))) := by
  unfold compilePattern
  cases d.pattern with
  | none =>
    cases d.dualPattern with
    | none => exact failConfig (by simp)
    | some q => exact (backtracking d.direction q).cons (by simp)
  | some p =>
    cases d.dualPattern with
    | none => exact (linear p).cons (by simp)
    | some q => exact failConfig (by simp)

theorem directive (place : Place) (d : Config.Directive) :
    Checks (SerialPlan.compile place d) (d.requirements place) := by
  unfold SerialPlan.compile Config.Directive.requirements
  rw [List.append_assoc, List.append_assoc, List.append_assoc]
  refine (directivePattern d).bind fun m hm => ?_
  rw [compilePattern_ok hm]
  dsimp only
  split
  · rename_i hgroup
    exact failConfig (Nat.not_lt_of_le hgroup)
  · rename_i hgroup
    refine cons (Nat.lt_of_not_le hgroup) ?_
    refine (compileAll linear d.tokensToRemove).bind fun tokensToRemove _ => ?_
    refine (compileAll resultFilter d.resultFilters).bind fun resultFilters _ => ?_
    exact (compileAll matchFilter d.matchFilters).bind_ok fun matchFilters => ok _

theorem entry (code key : String) (e : Config.Entry) :
    Checks (SerialEntry.compile code key e) (e.requirements (.directive code key)) := by
  cases e with
  | concrete d => exact (directive (.directive code key) d).map
  | reference name => exact ok (SerialEntry.reference name)

theorem serial (code : String) (s : Config.Serial) :
    Checks (SerialTree.compile code s) (s.requirements code) := by
  unfold SerialTree.compile Config.Serial.requirements
  refine (directive _ s.root).bind fun root _ => ?_
  exact (traverse (entry code) s.entries).bind_ok fun entries => ok _

theorem currency (code : String) (c : Config.Currency) :
    Checks (Currency.compile code c) (c.requirements code) := by
  unfold Currency.compile Config.Currency.requirements
  rw [List.append_assoc]
  refine (compileAll linear c.textMarks).bind fun textMarks _ => ?_
  refine (traverse (denomination code) c.denominations).bind fun rules _ => ?_
  cases c.serial with
  | none => exact ok _
  | some s =>
    rw [Option.toList_some, List.flatMap_singleton]
    exact (serial code s).map.bind_ok fun tree => ok _

theorem table (source : Config.Table) :
    Checks (CurrencyTable.ofConfig source) source.requirements :=
  (traverse currency source).bind_ok fun _ => ok _

end Checks

/-! ## Acceptance -/

namespace Config

theorem Denomination.acceptable_iff {code key : String} {d : Denomination} :
    d.Acceptable key ↔ ∀ r ∈ d.requirements code key, r.holds := by
  simp only [requirements, Requirement.pattern, List.forall_mem_append, List.forall_mem_cons,
    List.forall_mem_map, List.not_mem_nil, false_implies, implies_true, and_true]
  constructor
  · rintro ⟨hkey, hpatterns, hlinear, hbacktracking, hignore, hcolors⟩
    refine ⟨⟨⟨hkey, ⟨⟨?_, ?_⟩, hlinear⟩, hbacktracking⟩, hignore⟩, hcolors⟩
    · exact hpatterns.imp And.left And.right
    · exact hpatterns.symm.imp And.left And.right
  · rintro ⟨⟨⟨hkey, ⟨⟨hsome, hone⟩, hlinear⟩, hbacktracking⟩, hignore⟩, hcolors⟩
    refine ⟨hkey, ?_, hlinear, hbacktracking, hignore, hcolors⟩
    rcases hone with hpatterns | hdual
    · exact .inr ⟨hpatterns, hsome.resolve_left (absurd hpatterns)⟩
    · exact .inl ⟨hsome.resolve_right (absurd hdual), hdual⟩

/-- If a directive has just one pattern, it compiles for its engine. -/
theorem Directive.matcher?_isSome_iff {d : Directive}
    (h : d.pattern.isSome ≠ d.dualPattern.isSome) :
    d.matcher?.isSome = true ↔ (∀ p, d.pattern = some p → (Matcher.linear? p).isSome = true) ∧
      ∀ p, d.dualPattern = some p → (Matcher.backtracking? p d.direction).isSome = true := by
  unfold matcher?
  cases hp : d.pattern with
  | none =>
    cases hq : d.dualPattern with
    | none => simp [hp, hq] at h
    | some q => simp
  | some p =>
    cases hq : d.dualPattern with
    | none => simp
    | some q => simp [hp, hq] at h

theorem Directive.acceptable_iff {place : Place} {d : Directive} :
    d.Acceptable ↔ ∀ r ∈ d.requirements place, r.holds := by
  simp only [requirements, Requirement.pattern, List.forall_mem_append, List.forall_mem_cons,
    List.forall_mem_map, List.not_mem_nil, false_implies, implies_true, and_true,
    Option.mem_toList]
  constructor
  · rintro ⟨hone, ⟨m, hm, hgroup⟩, htokens, hresult, hmatch⟩
    obtain ⟨hlinear, hbacktracking⟩ := (matcher?_isSome_iff hone).1 (by simp [hm])
    refine ⟨⟨⟨⟨⟨⟨hone, hlinear⟩, hbacktracking⟩, fun m' hm' => ?_⟩, htokens⟩, hresult⟩, hmatch⟩
    obtain rfl : m = m' := Option.some.inj (hm.symm.trans hm')
    exact hgroup
  · rintro ⟨⟨⟨⟨⟨⟨hone, hlinear⟩, hbacktracking⟩, hgroup⟩, htokens⟩, hresult⟩, hmatch⟩
    have hsome := (matcher?_isSome_iff hone).2 ⟨hlinear, hbacktracking⟩
    obtain ⟨m, hm⟩ := Option.isSome_iff_exists.1 hsome
    exact ⟨hone, ⟨m, hm, hgroup m hm⟩, htokens, hresult, hmatch⟩

/-- A reference is always acceptable. -/
theorem Entry.acceptable_iff {place : Place} {e : Entry} :
    (∀ d, e = .concrete d → d.Acceptable) ↔ ∀ r ∈ e.requirements place, r.holds := by
  cases e with
  | concrete d =>
    unfold requirements
    rw [← Directive.acceptable_iff]
    simp
  | reference name => simp [requirements]

theorem Serial.acceptable_iff {code : String} {s : Serial} :
    s.Acceptable ↔ ∀ r ∈ s.requirements code, r.holds := by
  have hentries : (∀ key directive, s.entries.get? key = some (.concrete directive) →
      directive.Acceptable) ↔
      ∀ e ∈ s.entries.entries, ∀ d, e.2 = .concrete d → d.Acceptable := by
    refine Iff.trans ?_ (KeyMap.forall_get?_iff s.entries
      fun _ (e : Entry) => ∀ d, e = .concrete d → d.Acceptable)
    constructor
    · rintro h key _ hkey d rfl
      exact h key d hkey
    · intro h key d hkey
      exact h key _ hkey d rfl
  simp only [requirements, List.forall_mem_append, List.forall_mem_flatMap,
    ← Directive.acceptable_iff, ← Entry.acceptable_iff, ← hentries]
  constructor
  · exact fun h => ⟨h.root, h.entries⟩
  · exact fun h => ⟨h.1, h.2⟩

theorem Currency.acceptable_iff {code : String} {c : Currency} :
    c.Acceptable ↔ ∀ r ∈ c.requirements code, r.holds := by
  simp only [requirements, Requirement.pattern, List.forall_mem_append, List.forall_mem_map,
    List.forall_mem_flatMap, Option.mem_toList, ← Denomination.acceptable_iff,
    ← Serial.acceptable_iff]
  rw [← KeyMap.forall_get?_iff c.denominations fun key d => d.Acceptable key]
  constructor
  · exact fun h => ⟨⟨h.textMarks, h.denominations⟩, h.serial⟩
  · exact fun h => ⟨h.1.1, h.1.2, h.2⟩

theorem Table.acceptable_iff {source : Table} :
    (∀ code config, source.get? code = some config → config.Acceptable) ↔
      ∀ r ∈ source.requirements, r.holds := by
  rw [KeyMap.forall_get?_iff source fun _ (config : Currency) => config.Acceptable]
  simp only [requirements, List.forall_mem_flatMap, ← Currency.acceptable_iff]

end Config

/-- A table is compiled exactly if each of its currencies is acceptable, and else the first
requirement that does not hold is reported. -/
theorem CurrencyTable.ofConfig_accepts (source : Config.Table) :
    ((∃ t, ofConfig source = .ok t) ↔
        ∀ code config, source.get? code = some config → config.Acceptable) ∧
      ∀ failure, ofConfig source = .error failure ↔ FirstViolated source.requirements failure := by
  have hchecks := Checks.table source
  constructor
  · rw [hchecks.exists_ok_iff, Config.Table.acceptable_iff]
  · exact hchecks.eq_error_iff

end Banknote
