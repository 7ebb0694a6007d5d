import Banknote.Proofs.Currency.Compile
import Banknote.Proofs.Pattern.Removal
import Banknote.Recognition.Serial

/-!
# Serial numbers are taken from the tokens

`CurrencyTable.extract_taken`: whatever plan of a table is run on whatever tokens, the serial number
is made of characters of the joined tokens, or of one token if they are not joined, in their order.

* Filters.  A filter only takes away: `ResultFilter.applyAll_sublist` of characters,
  `MatchFilter.mem_of_mem_applyAll` of groups.
* Stages.  `scrub_sublist` for the removal patterns, `groupText_isInfix` for the groups of a match
  and `extractJoined_eq`, `extractToken_eq` for what is left of them.
* Tables.  `HasPlan` lists the plans of a table; in each of them the removal patterns are linear.
-/

namespace Banknote

open Pattern (Matcher State)

/-! ## Filters -/

namespace ResultFilter

theorem apply_sublist (filter : ResultFilter) (value : String) :
    (filter.apply value).toList.Sublist value.toList := by
  cases filter
  unfold apply
  rw [String.toList_ofList]
  exact List.filter_sublist

theorem applyAll_sublist (filters : List ResultFilter) (value : String) :
    (applyAll filters value).toList.Sublist value.toList := by
  induction filters generalizing value with
  | nil => exact List.Sublist.refl _
  | cons filter rest ih => exact (ih (filter.apply value)).trans (filter.apply_sublist value)

theorem applyAll_empty (filters : List ResultFilter) : applyAll filters "" = "" := by
  have hsub := applyAll_sublist filters ""
  exact String.toList_eq_nil_iff.1 (List.sublist_nil.1 hsub)

/-- Once blanks were taken out none comes back. -/
theorem isBlank_of_mem_applyAll {filters : List ResultFilter} (h : .removeBlanks ∈ filters)
    {value : String} {c : Char} (hc : c ∈ (applyAll filters value).toList) :
    Text.isBlank c = false := by
  cases filters with
  | nil => cases h
  | cons filter rest =>
    cases filter
    have hmem : c ∈ (apply .removeBlanks value).toList := (applyAll_sublist rest _).subset hc
    unfold apply at hmem
    rw [String.toList_ofList] at hmem
    simpa using (List.mem_filter.1 hmem).2

end ResultFilter

theorem MatchFilter.mem_of_mem_applyAll {filters : List MatchFilter} {groups : List String}
    {group : String} (h : group ∈ applyAll filters groups) : group ∈ groups := by
  induction filters generalizing groups with
  | nil => exact h
  | cons filter rest ih =>
    cases filter
    exact (List.mem_filter.1 (ih h)).1

/-! ## Stages -/

theorem Pattern.Matcher.groupText_isInfix (text : Array Char) (s : State) (index : Nat) :
    (Matcher.groupText text s index).toList <:+: text.toList := by
  unfold Matcher.groupText
  dsimp only
  split
  · rename_i span _
    rw [String.toList_ofList, Pattern.toList_extract]
    exact (List.take_prefix _ _).isInfix.trans (List.drop_suffix _ _).isInfix
  · exact List.nil_infix

namespace SerialPlan

variable {p : SerialPlan}

/-- All that is taken away before the search is taken away by linear matchers. -/
def RemovesLinearly (p : SerialPlan) : Prop := ∀ m ∈ p.tokensToRemove, m.engine = .linear

/-- A text is made of characters of another one in their order; of a run of them, if the plan
neither removes anything before the search nor filters what was found. -/
structure TakenFrom (p : SerialPlan) (serial joined : String) : Prop where
  sublist : serial.toList.Sublist joined.toList
  isInfix : p.tokensToRemove = [] → p.resultFilters = [] → serial.toList <:+: joined.toList

theorem takenFrom_empty (p : SerialPlan) (joined : String) : p.TakenFrom "" joined :=
  ⟨List.nil_sublist _, fun _ _ => List.nil_infix⟩

theorem foldl_removeAll_sublist {ms : List Matcher} (hms : ∀ m ∈ ms, m.engine = .linear)
    (value : String) :
    (ms.foldl (fun text m => m.removeAll text) value).toList.Sublist value.toList := by
  induction ms generalizing value with
  | nil => exact List.Sublist.refl _
  | cons m rest ih =>
    have hrest := ih (fun m hm => hms m (List.mem_cons_of_mem _ hm)) (m.removeAll value)
    exact hrest.trans (Matcher.removeAll_sublist (hms m List.mem_cons_self) value)

theorem scrub_sublist (hp : p.RemovesLinearly) (joined : String) :
    (p.scrub joined).toList.Sublist joined.toList :=
  foldl_removeAll_sublist hp joined

/-- The serial number in a joined text is empty or a filtered group, which is a run of what the
removal patterns left. -/
theorem extractJoined_eq (p : SerialPlan) (joined : String) :
    p.extractJoined joined = "" ∨ ∃ group : String, group.toList <:+: (p.scrub joined).toList ∧
      p.extractJoined joined = ResultFilter.applyAll p.resultFilters group := by
  unfold extractJoined
  split
  · exact .inl rfl
  · split
    · rename_i groups hgroups
      obtain ⟨s, _, rfl⟩ := Option.map_eq_some_iff.1 hgroups
      unfold pick
      split
      · rename_i group hgroup
        have hmem := MatchFilter.mem_of_mem_applyAll (List.mem_of_getElem? hgroup)
        obtain ⟨index, _, rfl⟩ := List.mem_map.1 hmem
        refine .inr ⟨_, ?_, rfl⟩
        exact Matcher.groupText_isInfix (p.scrub joined).toList.toArray s index
      · exact .inl rfl
    · exact .inl rfl

/-- The serial number without joining is empty or a filtered token. -/
theorem extractToken_eq (p : SerialPlan) (tokens : List String) :
    p.extractToken tokens = "" ∨ ∃ token ∈ tokens,
      p.extractToken tokens = ResultFilter.applyAll p.resultFilters token := by
  unfold extractToken
  dsimp only
  cases hfind : (tokens.filter fun token => !p.tokensToRemove.any (·.isMatch token)).find?
      p.matcher.isMatch with
  | none => exact .inl (ResultFilter.applyAll_empty _)
  | some token =>
    have hmem := List.mem_filter.1 (List.mem_of_find?_eq_some hfind)
    exact .inr ⟨token, hmem.1, rfl⟩

theorem extractJoined_takenFrom (hp : p.RemovesLinearly) (joined : String) :
    p.TakenFrom (p.extractJoined joined) joined := by
  rcases p.extractJoined_eq joined with hempty | ⟨group, hgroup, hserial⟩
  · rw [hempty]
    exact p.takenFrom_empty joined
  · rw [hserial]
    constructor
    · have hfiltered := ResultFilter.applyAll_sublist p.resultFilters group
      exact (hfiltered.trans hgroup.sublist).trans (scrub_sublist hp joined)
    · intro hremove hfilters
      have hscrub : p.scrub joined = joined := by
        unfold scrub
        rw [hremove]
        rfl
      rw [hfilters]
      rw [hscrub] at hgroup
      exact hgroup

theorem filtered_takenFrom (p : SerialPlan) (token : String) :
    p.TakenFrom (ResultFilter.applyAll p.resultFilters token) token := by
  refine ⟨ResultFilter.applyAll_sublist _ _, ?_⟩
  intro _ hfilters
  rw [hfilters]
  exact List.infix_refl _

theorem extract_eq (p : SerialPlan) (tokens : List String) :
    p.extract tokens = "" ∨
      ∃ found, p.extract tokens = ResultFilter.applyAll p.resultFilters found := by
  unfold extract
  split
  · rcases p.extractToken_eq tokens with hempty | ⟨token, _, hserial⟩
    · exact .inl hempty
    · exact .inr ⟨token, hserial⟩
  · rename_i joined _
    rcases p.extractJoined_eq joined with hempty | ⟨group, _, hserial⟩
    · exact .inl hempty
    · exact .inr ⟨group, hserial⟩

/-- No stage after the filters puts a blank back. -/
theorem isBlank_of_mem_extract (hp : .removeBlanks ∈ p.resultFilters) {tokens : List String}
    {c : Char} (hc : c ∈ (p.extract tokens).toList) : Text.isBlank c = false := by
  rcases p.extract_eq tokens with hempty | ⟨found, hserial⟩
  · rw [hempty] at hc
    cases hc
  · rw [hserial] at hc
    exact ResultFilter.isBlank_of_mem_applyAll hp hc

/-- With joining, the scrubbed text is searched. -/
theorem extract_of_join (p : SerialPlan) {tokens : List String} {joined : String}
    (h : Token.join tokens p.joinMethod = some joined) (hjoined : joined ≠ "") :
    p.extract tokens = ((p.matcher.groups? (p.scrub joined)).map p.pick).getD "" := by
  have hempty : joined.isEmpty = false := by
    rw [← Bool.not_eq_true, String.isEmpty_iff]
    exact hjoined
  unfold extract extractJoined
  rw [h]
  dsimp only
  rw [hempty]
  cases p.matcher.groups? (p.scrub joined) with
  | some groups => rfl
  | none => rfl

theorem CompiledFrom.removesLinearly {d : Config.Directive} (h : p.CompiledFrom d) :
    p.RemovesLinearly := by
  intro m hm
  obtain ⟨source, _, hsource⟩ := (mem_of_map_some h.tokensToRemove).1 hm
  exact Matcher.linear?_eq_some hsource

end SerialPlan

/-! ## Tables -/

namespace CurrencyTable

variable {source : Config.Table} {t : CurrencyTable} {plan : SerialPlan}

/-- The plans of a table: of each currency with serial numbers the default one and the entries that
are not references. -/
inductive HasPlan (t : CurrencyTable) : SerialPlan → Prop
  | root {code : String} {c : Currency} {tree : SerialTree} (hc : t.get? code = some c)
    (htree : c.serial = some tree) : t.HasPlan tree.root
  | entry {code key : String} {c : Currency} {tree : SerialTree} {plan : SerialPlan}
    (hc : t.get? code = some c) (htree : c.serial = some tree)
    (hkey : tree.entries.get? key = some (.concrete plan)) : t.HasPlan plan

theorem exists_serial (h : ofConfig source = .ok t) {code : String} {c : Currency}
    (hc : t.get? code = some c) {tree : SerialTree} (htree : c.serial = some tree) :
    ∃ s, tree.CompiledFrom code s := by
  have hentry := KeyMap.get?_eq_some_iff.1 hc
  obtain ⟨config, _, hcompile⟩ := (KeyMap.mem_traverse (ofConfig_ok h).1).1 hentry
  have hfrom := Currency.compile_ok hcompile
  cases hserial : config.serial with
  | none =>
    rw [hfrom.serial_none hserial] at htree
    cases htree
  | some s =>
    obtain ⟨tree', htree', heq⟩ := hfrom.serial_some s hserial
    obtain rfl : tree' = tree := Option.some.inj (heq.symm.trans htree)
    exact ⟨s, htree'⟩

/-- Every plan of a compiled table comes from some directive. -/
theorem HasPlan.exists_directive (hplan : t.HasPlan plan) (h : ofConfig source = .ok t) :
    ∃ d, plan.CompiledFrom d := by
  cases hplan with
  | root hc htree =>
    obtain ⟨s, htree⟩ := exists_serial h hc htree
    exact ⟨s.root, SerialPlan.compile_ok htree.root⟩
  | @entry code key c tree plan hc htree hkey =>
    obtain ⟨s, htree⟩ := exists_serial h hc htree
    cases hentry : s.entries.get? key with
    | none =>
      rw [htree.none key hentry] at hkey
      cases hkey
    | some entry =>
      cases entry with
      | reference name =>
        rw [htree.reference key name hentry] at hkey
        cases hkey
      | concrete d =>
        obtain ⟨plan', hplan', heq⟩ := htree.concrete key d hentry
        rw [heq] at hkey
        cases hkey
        exact ⟨d, SerialPlan.compile_ok hplan'⟩

/-- A table of one currency with one directive. -/
def lone (d : Config.Directive) : Config.Table :=
  .ofList [("XTS", { serial := some ⟨d, .empty⟩ })]

theorem exists_lone {d : Config.Directive} (h : (ofConfig (lone d)).toOption.isSome = true) :
    ∃ t plan, ofConfig (lone d) = .ok t ∧ t.HasPlan plan ∧
      SerialPlan.compile (.directive "XTS" Place.serialKey) d = .ok plan := by
  obtain ⟨t, ht⟩ := Option.isSome_iff_exists.1 h
  have htable := eq_ok_of_toOption ht
  obtain ⟨c, hcompile, hc⟩ := KeyMap.get?_traverse_some (ofConfig_ok htable).1 (k := "XTS") rfl
  obtain ⟨tree, htree, hserial⟩ := (Currency.compile_ok hcompile).serial_some _ rfl
  exact ⟨t, tree.root, htable, .root hc hserial, htree.root⟩

/-- The serial number that a plan of a compiled table finds is taken from the joined tokens, or from
one token if they are not joined.  It has no blank if the plan takes blanks out. -/
theorem extract_taken (h : ofConfig source = .ok t) (hplan : t.HasPlan plan)
    (tokens : List String) :
    (∀ delimiter, plan.joinMethod.delimiter? = some delimiter →
        plan.TakenFrom (plan.extract tokens) (String.intercalate delimiter tokens)) ∧
      (plan.joinMethod = .perToken → plan.extract tokens = "" ∨
        ∃ token ∈ tokens, plan.TakenFrom (plan.extract tokens) token) ∧
      (.removeBlanks ∈ plan.resultFilters →
        ∀ c ∈ (plan.extract tokens).toList, Text.isBlank c = false) := by
  obtain ⟨d, hd⟩ := hplan.exists_directive h
  refine ⟨?_, ?_, fun hfilter c hc => SerialPlan.isBlank_of_mem_extract hfilter hc⟩
  · intro delimiter hdelimiter
    have hextract : plan.extract tokens =
        plan.extractJoined (String.intercalate delimiter tokens) := by
      unfold SerialPlan.extract Token.join
      rw [hdelimiter]
      rfl
    rw [hextract]
    exact SerialPlan.extractJoined_takenFrom hd.removesLinearly _
  · intro hmethod
    have hextract : plan.extract tokens = plan.extractToken tokens := by
      unfold SerialPlan.extract
      rw [hmethod]
      rfl
    rw [hextract]
    rcases plan.extractToken_eq tokens with hempty | ⟨token, htoken, hserial⟩
    · exact .inl hempty
    · rw [hserial]
      exact .inr ⟨token, htoken, plan.filtered_takenFrom token⟩

/-- A directive that removes a word before the search and the blanks after it. -/
def wordsAndDigits : Config.Directive where
  pattern := some "[A-Z]+ [0-9]+"
  joinMethod := .spaced
  tokensToRemove := ["NO"]
  resultFilters := ["remove-spaces"]

theorem extract_taken_words_and_digits :
    ∃ t plan, ofConfig (.ofList [("XTS", { serial := some ⟨wordsAndDigits, .empty⟩ })]) = .ok t ∧
      t.HasPlan plan ∧ plan.extract ["NO", "AB", "12"] = "AB12" ∧
      "AB12".toList.Sublist "NO AB 12".toList ∧ ∀ c ∈ "AB12".toList, Text.isBlank c = false := by
  have hcompiles : (ofConfig (.ofList [("XTS", { serial := some ⟨wordsAndDigits, .empty⟩ })])
      ).toOption.isSome = true := by decide +kernel
  obtain ⟨t, ht⟩ := Option.isSome_iff_exists.1 hcompiles
  have htable := eq_ok_of_toOption ht
  obtain ⟨c, hcompile, hc⟩ := KeyMap.get?_traverse_some (ofConfig_ok htable).1 (k := "XTS") rfl
  obtain ⟨tree, htree, hserial⟩ := (Currency.compile_ok hcompile).serial_some _ rfl
  have hplan : t.HasPlan tree.root := .root hc hserial
  have hfrom := SerialPlan.compile_ok htree.root
  have hextract : tree.root.extract ["NO", "AB", "12"] = "AB12" := by
    have hrun : (SerialPlan.compile (.directive "XTS" Place.serialKey) wordsAndDigits).toOption.map
        (·.extract ["NO", "AB", "12"]) = some "AB12" := by decide +kernel
    rw [htree.root] at hrun
    exact Option.some.inj hrun
  have hfilter : .removeBlanks ∈ tree.root.resultFilters := by
    have hfilters := hfrom.resultFilters
    cases hlist : tree.root.resultFilters with
    | nil =>
      rw [hlist] at hfilters
      cases hfilters
    | cons filter rest =>
      cases filter
      exact List.mem_cons_self
  obtain ⟨htaken, _, hblank⟩ := extract_taken htable hplan ["NO", "AB", "12"]
  have hspaced : tree.root.joinMethod.delimiter? = some " " := by
    rw [hfrom.joinMethod]
    rfl
  have hsub := (htaken " " hspaced).sublist
  have hnoBlank := hblank hfilter
  rw [hextract] at hsub hnoBlank
  exact ⟨t, tree.root, htable, hplan, hextract, hsub, hnoBlank⟩

end CurrencyTable

end Banknote
