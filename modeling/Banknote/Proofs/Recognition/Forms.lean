import Banknote.Proofs.Pattern.Spelling
import Banknote.Proofs.Recognition.Process

/-!
# The forms of serial numbers

A `SerialForm` is a number of letters and then a number of digits.  `Config.Directive.keepsTo` is a
check of a directive that only looks at its pattern and its settings, and
`Config.Directive.fits_of_keepsTo` says what it is good for: whatever the tokens, the serial number
is empty or has one of the forms.

The check asks for a numbered group, since nothing is known of the whole match.  After empty groups
were dropped such a group can only have moved up to a number that is not that of the whole match.

`Recognition.process_of_keepsTo` carries this over to the answers on a table.
-/

namespace Banknote

open Pattern (CharSet Matcher Spelled)

/-! ## Forms -/

/-- A number of letters and then a number of digits. -/
structure SerialForm where
  letters : Nat
  digits : Nat
  deriving DecidableEq, Repr

namespace SerialForm

/-- A text consists of as many letters from A to Z and then of as many digits from 0 to 9. -/
def Fits (form : SerialForm) (serial : String) : Prop :=
  ∃ letters digits, serial.toList = letters ++ digits ∧
    (letters.length = form.letters ∧ ∀ c ∈ letters, 'A' ≤ c ∧ c ≤ 'Z') ∧
    digits.length = form.digits ∧ ∀ c ∈ digits, '0' ≤ c ∧ c ≤ '9'

/-- The form as one set of characters for each place. -/
def sets (form : SerialForm) : List CharSet :=
  List.replicate form.letters (.range 'A'.toNat 'Z'.toNat) ++
    List.replicate form.digits (.range '0'.toNat '9'.toNat)

theorem contains_range {first last c : Char} :
    (CharSet.range first.toNat last.toNat).contains c = true ↔ first ≤ c ∧ c ≤ last := by
  simp [CharSet.range, CharSet.contains, Text.inRanges, Char.le_def, UInt32.le_iff_toNat_le]

theorem spelled_append {u v : List CharSet} {text : List Char} (h : Spelled (u ++ v) text) :
    ∃ first second, text = first ++ second ∧ Spelled u first ∧ Spelled v second := by
  induction u generalizing text with
  | nil => exact ⟨[], text, rfl, .nil, h⟩
  | cons set u ih =>
    cases h with
    | cons hset hrest =>
      obtain ⟨first, second, rfl, hu, hv⟩ := ih hrest
      exact ⟨_ :: first, second, rfl, .cons hset hu, hv⟩

theorem spelled_replicate {n : Nat} {set : CharSet} {text : List Char}
    (h : Spelled (List.replicate n set) text) :
    text.length = n ∧ ∀ c ∈ text, set.contains c = true := by
  have hlength : text.length = n := by
    rw [← h.length_eq, List.length_replicate]
  refine ⟨hlength, ?_⟩
  intro c hc
  obtain ⟨i, hi, rfl⟩ := List.mem_iff_getElem.1 hc
  have hget := h.get (i := i) (by simpa using hlength ▸ hi) hi
  simpa using hget

theorem fits_of_spelled {form : SerialForm} {serial : String}
    (h : Spelled form.sets serial.toList) : form.Fits serial := by
  obtain ⟨letters, digits, htext, hletters, hdigits⟩ := spelled_append h
  obtain ⟨hlength, hin⟩ := spelled_replicate hletters
  obtain ⟨hlength', hin'⟩ := spelled_replicate hdigits
  exact ⟨letters, digits, htext, ⟨hlength, fun c hc => contains_range.1 (hin c hc)⟩,
    hlength', fun c hc => contains_range.1 (hin' c hc)⟩

end SerialForm

/-! ## Plans -/

/-- A group that does not stand first after groups were dropped did not stand first before. -/
theorem MatchFilter.mem_tail_of_getElem? {filters : List MatchFilter} {groups : List String}
    {index : Nat} (hindex : index ≠ 0) {group : String}
    (h : (applyAll filters groups)[index]? = some group) : group ∈ groups.tail := by
  induction filters generalizing groups with
  | nil =>
    obtain ⟨index, rfl⟩ := Nat.exists_eq_succ_of_ne_zero hindex
    have htail : groups.tail[index]? = some group := by
      rw [List.getElem?_tail]
      exact h
    exact List.mem_of_getElem? htail
  | cons filter rest ih =>
    cases filter
    have hmem : group ∈ (groups.filter (!·.isEmpty)).tail := ih h
    cases groups with
    | nil => cases hmem
    | cons first groups =>
      rw [List.filter_cons] at hmem
      split at hmem
      · exact (List.mem_filter.1 hmem).1
      · exact (List.mem_filter.1 (List.mem_of_mem_tail hmem)).1

theorem Pattern.Matcher.exists_groupText {m : Matcher} {value : String} {groups : List String}
    (h : m.groups? value = some groups) {group : String} (hgroup : group ∈ groups.tail) :
    ∃ s index, m.match? value.toList.toArray = some s ∧ index ≠ 0 ∧
      group = Matcher.groupText value.toList.toArray s index := by
  obtain ⟨s, hs, rfl⟩ := Option.map_eq_some_iff.1 h
  rw [← List.map_tail, List.mem_map] at hgroup
  obtain ⟨index, hindex, rfl⟩ := hgroup
  refine ⟨s, index, hs, ?_, rfl⟩
  rw [List.tail_range, List.mem_range'_1] at hindex
  omega

namespace SerialPlan

variable {p : SerialPlan}

/-- A numbered group of the joined text that is not filtered is spelled like the body of a group of
the pattern. -/
theorem extract_spelled (hgroup : p.captureGroup ≠ 0) (hjoined : p.joinMethod ≠ .perToken)
    (hfilters : p.resultFilters = []) {allowed : List (List CharSet)}
    (hbodies : ∀ e ∈ p.matcher.program.node.bodies,
      ∃ ws, e.2.spellings? = some ws ∧ ws ⊆ allowed) (tokens : List String) :
    p.extract tokens = "" ∨ ∃ w ∈ allowed, Spelled w (p.extract tokens).toList := by
  unfold extract
  split
  · rename_i hjoin
    have hnone : p.joinMethod.delimiter? = none := Option.map_eq_none_iff.1 hjoin
    cases hmethod : p.joinMethod with
    | perToken => exact absurd hmethod hjoined
    | spaced => simp [hmethod, JoinMethod.delimiter?] at hnone
    | concatenated => simp [hmethod, JoinMethod.delimiter?] at hnone
  · unfold extractJoined
    split
    · exact .inl rfl
    · split
      · rename_i groups hgroups
        unfold pick
        split
        · rename_i group hpick
          have hmem := MatchFilter.mem_tail_of_getElem? hgroup hpick
          obtain ⟨s, index, hs, hindex, rfl⟩ := Matcher.exists_groupText hgroups hmem
          rw [hfilters]
          exact Matcher.group_spelled hbodies hs hindex
        · exact .inl rfl
      · exact .inl rfl

end SerialPlan

/-! ## Directives -/

/-- Whether all spellings of a pattern are among some forms. -/
def Pattern.Node.keepsTo (forms : List SerialForm) (p : Pattern.Node) : Bool :=
  match p.spellings? with
  | some ws => ws.all (forms.map SerialForm.sets).contains
  | none => false

/-- Whether a directive takes a numbered group of the joined text as it is, and all groups of its
pattern keep to some forms. -/
def Config.Directive.keepsTo (forms : List SerialForm) (d : Config.Directive) : Bool :=
  d.captureGroup != 0 && d.joinMethod != .perToken && d.resultFilters.isEmpty &&
    d.matcher?.any fun m => m.program.node.bodies.all fun e => e.2.keepsTo forms

theorem Pattern.Node.spellings_of_keepsTo {forms : List SerialForm} {p : Pattern.Node}
    (h : p.keepsTo forms = true) :
    ∃ ws, p.spellings? = some ws ∧ ws ⊆ forms.map SerialForm.sets := by
  unfold keepsTo at h
  split at h
  · rename_i ws hws
    refine ⟨ws, hws, ?_⟩
    intro w hw
    exact List.contains_iff_mem.1 (List.all_eq_true.1 h w hw)
  · cases h

namespace Config.Directive

variable {forms : List SerialForm} {d : Config.Directive} {p : SerialPlan}

/-- A directive that passes the check only finds serial numbers of the forms. -/
theorem fits_of_keepsTo (h : d.keepsTo forms = true) (hp : p.CompiledFrom d)
    (tokens : List String) :
    p.extract tokens = "" ∨ ∃ form ∈ forms, form.Fits (p.extract tokens) := by
  unfold keepsTo at h
  simp only [Bool.and_eq_true, bne_iff_ne, ne_eq, List.isEmpty_iff, Option.any_eq_true] at h
  obtain ⟨⟨⟨hgroup, hjoined⟩, hfilters⟩, m, hm, hbodies⟩ := h
  obtain rfl : m = p.matcher := Option.some.inj (hm.symm.trans hp.matcher)
  have hspelled : ∀ e ∈ p.matcher.program.node.bodies,
      ∃ ws, e.2.spellings? = some ws ∧ ws ⊆ forms.map SerialForm.sets := by
    intro e he
    exact Pattern.Node.spellings_of_keepsTo (List.all_eq_true.1 hbodies e he)
  have hnoFilters : p.resultFilters = [] := by
    have hcompiled := hp.resultFilters
    rw [hfilters] at hcompiled
    exact List.map_eq_nil_iff.1 hcompiled.symm
  rw [← hp.captureGroup] at hgroup
  rw [← hp.joinMethod] at hjoined
  rcases SerialPlan.extract_spelled hgroup hjoined hnoFilters hspelled tokens with
    hempty | ⟨w, hw, hserial⟩
  · exact .inl hempty
  · obtain ⟨form, hform, rfl⟩ := List.mem_map.1 hw
    exact .inr ⟨form, hform, SerialForm.fits_of_spelled hserial⟩

end Config.Directive

/-! ## Trees -/

/-- The directive for a denomination, if there is one.  A reference is followed once. -/
def Config.Serial.directive? (serial : Config.Serial) (denomination : String) :
    Option Config.Directive :=
  if denomination = "" then some serial.root
  else match serial.entries.get? (Config.entryKey denomination) with
    | none => some serial.root
    | some (.concrete directive) => some directive
    | some (.reference name) =>
      match serial.entries.get? name with
      | some (.concrete directive) => some directive
      | _ => none

/-- Whether there is a directive for every denomination of a currency and for none, and each of them
keeps to the forms of its denomination. -/
def Config.Currency.keepsTo (forms : String → List SerialForm) (c : Config.Currency) : Bool :=
  c.serial.any fun serial => ("" :: c.denominations.keys).all fun denomination =>
    (serial.directive? denomination).any (·.keepsTo (forms denomination))

namespace Recognition

theorem Resolves.directive?_eq {serial : Config.Serial} {denomination : String}
    {resolved : Except Failure (String × Config.Directive)}
    (h : Resolves serial denomination resolved) :
    serial.directive? denomination = resolved.toOption.map Prod.snd := by
  unfold Config.Serial.directive?
  cases h with
  | unnamed hempty => rw [if_pos hempty]; rfl
  | default hne hentry => rw [if_neg hne, hentry]; rfl
  | own hne hentry => rw [if_neg hne, hentry]; rfl
  | referred hne hentry hname => rw [if_neg hne, hentry]; dsimp only; rw [hname]; rfl
  | chained hne hentry hname => rw [if_neg hne, hentry]; dsimp only; rw [hname]; rfl
  | missing hne hentry hname => rw [if_neg hne, hentry]; dsimp only; rw [hname]; rfl

/-! ## Answers -/

/-- Of each currency of a table either nothing but the code is known, or it keeps to the forms of
its code. -/
def KeepsTo (forms : String → String → List SerialForm) (source : Config.Table) : Prop :=
  ∀ code config, source.get? code = some config →
    Bare config ∨ config.keepsTo (forms code) = true

namespace KeepsTo

variable {forms : String → String → List SerialForm} {source : Config.Table} {s : Settings}
  {r : Request} {config : Config.Currency}

/-- A request that is genuine finds a directive for the denomination that is worked with. -/
theorem exists_directive (h : KeepsTo forms source) (hgenuine : Genuine source s r config) :
    ∃ serial, config.serial = some serial ∧ ∀ denomination, Works config r denomination →
      ∃ d, serial.directive? denomination = some d ∧
        d.keepsTo (forms (normalizedCode r.currencyCode) denomination) = true := by
  have hadmitted := hgenuine.admitted
  have hconfig := (h _ config hadmitted.listed).resolve_left hadmitted.described
  obtain ⟨serial, hserial, hall⟩ := (Option.any_eq_true _ _).1 hconfig
  refine ⟨serial, hserial, ?_⟩
  intro denomination hworks
  have hmem : denomination ∈ "" :: config.denominations.keys :=
    List.mem_cons.2 (hworks.empty_or_mem hadmitted)
  exact (Option.any_eq_true _ _).1 (List.all_eq_true.1 hall denomination hmem)

/-- No request fails for want of a directive. -/
theorem failure_ne (h : KeepsTo forms source) {failure : Failure}
    (hanswer : Answers source s r (.error failure)) (name : String) :
    failure ≠ .directiveNotDefined name ∧ failure ≠ .unsupportedReference name := by
  cases hanswer with
  | noSerial hgenuine hnone =>
    obtain ⟨serial, hserial, _⟩ := h.exists_directive hgenuine
    rw [hnone] at hserial
    cases hserial
  | unresolved hgenuine hserial hworks hresolves =>
    obtain ⟨serial, hserial', hall⟩ := h.exists_directive hgenuine
    obtain rfl := Option.some.inj (hserial.symm.trans hserial')
    obtain ⟨d, hd, _⟩ := hall _ hworks
    rw [hresolves.directive?_eq] at hd
    cases hd
  | unknownCurrency | notConfigured | invalidDenomination | notMoney | textMarkMismatch =>
    exact ⟨nofun, nofun⟩

/-- A serial number that is found has one of the forms of its denomination. -/
theorem fits (h : KeepsTo forms source) {outcome : Outcome}
    (hanswer : Answers source s r (.ok outcome)) :
    outcome.serial = "" ∨
      ∃ form ∈ forms (normalizedCode r.currencyCode) outcome.denomination,
        form.Fits outcome.serial := by
  cases hanswer with
  | recognized hgenuine hserial hworks hresolves hplan =>
    obtain ⟨serial, hserial', hall⟩ := h.exists_directive hgenuine
    obtain rfl := Option.some.inj (hserial.symm.trans hserial')
    obtain ⟨d, hd, hkeeps⟩ := hall _ hworks
    rw [hresolves.directive?_eq] at hd
    obtain rfl := Option.some.inj hd
    exact Config.Directive.fits_of_keepsTo hkeeps (SerialPlan.compile_ok hplan) r.tokens

end KeepsTo

end Recognition

end Banknote
