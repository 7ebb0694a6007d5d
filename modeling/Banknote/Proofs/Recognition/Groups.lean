import Banknote.Proofs.Currency.Image
import Banknote.Proofs.Pattern.Agreement
import Banknote.Proofs.Pattern.Spelling
import Banknote.Proofs.Recognition.Extract

/-!
# The group that holds the serial number

A plan is accepted if its group is one of those of its pattern.  A match has all of them, whichever
engine found it and in whichever direction, so the group is missing only if the filters took out too
many: `CurrencyTable.extract_group`.

* Numbers.  `bodies_numbered`: the groups of a compiled pattern are numbered below its group count,
  so no group that took part in a match is left out.
* Groups.  `Matcher.GroupsOf` says what the groups of a match are.
* Filters.  `MatchFilter.applyAll_of_ne_nil`: filtering once more takes nothing else out.

`CurrencyTable.match_without_serial` is a plan whose pattern matches without having groups.  A pattern
is one that `Pattern.Reader.readPattern` reads; what it refuses is named there.
-/

namespace Banknote

open Pattern

/-! ## Numbers -/

namespace Pattern

/-- The groups of a pattern are numbered from one up to a count. -/
def Node.NumberedTo (count : Nat) (p : Node) : Prop := ∀ b ∈ p.bodies, 0 < b.1 ∧ b.1 ≤ count

theorem inherited_numberedTo (engine : Engine) (features : Feature → Prop) (count : Nat) :
    Node.Inherited engine features (UpTo count) (fun _ => True) (Node.NumberedTo count) where
  empty := fun _ hb => by cases hb
  chars _ := fun _ hb => by cases hb
  assertion _ := fun _ hb => by cases hb
  seq hp hq := fun b hb => (List.mem_append.1 hb).elim (hp b) (hq b)
  alt hp hq := fun b hb => (List.mem_append.1 hb).elim (hp b) (hq b)
  star _ _ hp := hp
  plus _ _ hp := hp
  group hindex hp := List.forall_mem_cons.2 ⟨hindex, hp⟩
  look _ _ _ _ hp := hp
  backref _ _ _ := fun _ hb => by cases hb
  atomic _ _ hp := hp
  keep _ _ := fun _ hb => by cases hb
  searchStart _ _ := fun _ hb => by cases hb
  groupSet _ _ _ := fun _ hb => by cases hb
  branch _ _ _ _ hp hq hr := fun b hb =>
    (List.mem_append.1 hb).elim (hp b) fun hb => (List.mem_append.1 hb).elim (hq b) (hr b)

theorem bodies_numbered {engine : Engine} {source : List Char} {program : Program}
    (h : Program.compile? engine source = some program) :
    ∀ b ∈ program.node.bodies, 0 < b.1 ∧ b.1 < program.groups := by
  obtain ⟨reading, hread, hprogram⟩ := Option.map_eq_some_iff.1 h
  have hcount : program.groups = reading.groups + 1 := by
    rw [← hprogram]
  have hnumbered : program.node.NumberedTo reading.groups :=
    inherited_compile hread h (Reader.built_readPattern hread) (inherited_numberedTo _ _ _)
  intro b hb
  obtain ⟨hfirst, hlast⟩ := hnumbered b hb
  omega

/-! ## Groups -/

namespace Matcher

variable {m : Matcher} {text : String}

/-- The groups of the match that is taken: as many as the pattern has, the whole match first, and
each of the others with what it matched, or empty if it took no part. -/
structure GroupsOf (m : Matcher) (text : String) (groups : List String) (s : State) : Prop where
  taken : m.match? text.toList.toArray = some s
  length_eq : groups.length = m.groupCount
  numbered : ∀ mark ∈ s.marks, 0 < mark.1 ∧ mark.1 < groups.length
  whole : ∀ group, groups[0]? = some group →
    group = String.ofList (text.toList.toArray.extract s.start s.pos).toList
  matched : ∀ index group span, 0 < index → groups[index]? = some group →
    s.marks.lookup index = some span →
      group = String.ofList (text.toList.toArray.extract span.first span.stop).toList
  absent : ∀ index group, 0 < index → groups[index]? = some group →
    s.marks.lookup index = none → group = ""

theorem groupsOf_groups? {engine : Engine} {source : List Char}
    (hprogram : Program.compile? engine source = some m.program) {groups : List String}
    (h : m.groups? text = some groups) : ∃ s, m.GroupsOf text groups s := by
  obtain ⟨s, hs, rfl⟩ := Option.map_eq_some_iff.1 h
  have hlength : ((List.range m.groupCount).map (groupText text.toList.toArray s)).length =
      m.groupCount := by
    rw [List.length_map, List.length_range]
  have hget : ∀ index group,
      ((List.range m.groupCount).map (groupText text.toList.toArray s))[index]? = some group →
        group = groupText text.toList.toArray s index := by
    intro index group hgroup
    rw [List.getElem?_map] at hgroup
    obtain ⟨index', hindex, rfl⟩ := Option.map_eq_some_iff.1 hgroup
    obtain ⟨_, hrange⟩ := List.getElem?_eq_some_iff.1 hindex
    rw [← hrange, List.getElem_range]
  refine ⟨s, hs, hlength, ?_, ?_, ?_, ?_⟩
  · rintro ⟨index, span⟩ hmark
    obtain ⟨_, _, hleads⟩ := leads_of_match? hs
    rcases hleads.captured hmark with hinit | ⟨body, hbody, _⟩
    · cases hinit
    · rw [hlength]
      exact bodies_numbered hprogram _ hbody
  · intro group hgroup
    exact hget 0 group hgroup
  · intro index group span hpos hgroup hspan
    rw [hget index group hgroup, groupText, if_neg (Nat.ne_of_gt hpos), hspan]
  · intro index group hpos hgroup hspan
    rw [hget index group hgroup, groupText, if_neg (Nat.ne_of_gt hpos), hspan]

end Matcher

end Pattern

/-! ## Filters -/

/-- All that filters may do is to take out the empty groups, so doing it once is enough. -/
theorem MatchFilter.applyAll_of_ne_nil {filters : List MatchFilter} (h : filters ≠ [])
    (groups : List String) : applyAll filters groups = groups.filter (!·.isEmpty) := by
  induction filters generalizing groups with
  | nil => exact absurd rfl h
  | cons filter rest ih =>
    cases filter
    cases rest with
    | nil => rfl
    | cons filter' rest =>
      have hrest := ih (List.cons_ne_nil _ _) (groups.filter (!·.isEmpty))
      simp only [List.filter_filter, Bool.and_self] at hrest
      exact hrest

namespace SerialPlan

variable {p : SerialPlan}

/-- The filters leave too few groups. -/
def MissesGroup (p : SerialPlan) (groups : List String) : Prop :=
  (MatchFilter.applyAll p.matchFilters groups)[p.captureGroup]? = none

theorem pick_of_missesGroup {groups : List String} (h : p.MissesGroup groups) :
    p.pick groups = "" := by
  unfold pick
  rw [h]

theorem pick_of_getElem? {groups : List String} {group : String}
    (h : (MatchFilter.applyAll p.matchFilters groups)[p.captureGroup]? = some group) :
    p.pick groups = ResultFilter.applyAll p.resultFilters group := by
  unfold pick
  rw [h]

end SerialPlan

/-! ## Plans -/

theorem SerialPlan.CompiledFrom.exists_program {p : SerialPlan} {d : Config.Directive}
    (h : p.CompiledFrom d) :
    ∃ engine source, Program.compile? engine source = some p.matcher.program ∧
      (p.matcher.direction = .rightToLeft → p.matcher.engine = .backtracking) := by
  have hmatcher := h.matcher
  unfold Config.Directive.matcher? at hmatcher
  split at hmatcher
  · have hof := Matcher.linear?_isOf hmatcher
    refine ⟨_, _, hof.program, fun hdirection => ?_⟩
    rw [hof.direction_eq] at hdirection
    cases hdirection
  · have hof := Matcher.backtracking?_isOf hmatcher
    exact ⟨_, _, hof.program, fun _ => hof.engine_eq⟩
  · cases hmatcher

namespace CurrencyTable

variable {source : Config.Table} {t : CurrencyTable} {plan : SerialPlan}

/-- A match that a plan takes in a joined text has all groups of the pattern.  Without filters the
group of the plan is one of them.  With filters it is the one at its place among those that are not
empty, and is missing exactly if they are too few.  There is such a match if the pattern matches;
from the right, if moreover no search gives up and the pattern neither moves the reported start nor
asks where the search started. -/
theorem extract_group (h : ofConfig source = .ok t) (hplan : t.HasPlan plan) {tokens : List String}
    {joined : String} (hjoin : Token.join tokens plan.joinMethod = some joined)
    (hjoined : joined ≠ "") :
    (plan.matcher.isMatch (plan.scrub joined) = true →
        (plan.matcher.direction = .rightToLeft →
          plan.matcher.program.node.uses .movedStart = false ∧
            plan.matcher.program.node.uses .searchStart = false ∧
            ∀ place ≤ (plan.scrub joined).length,
              plan.matcher.search (plan.scrub joined).toList.toArray place ≠ .gaveUp) →
          ∃ groups, plan.matcher.groups? (plan.scrub joined) = some groups) ∧
      ∀ groups, plan.matcher.groups? (plan.scrub joined) = some groups →
        (∃ s, plan.matcher.GroupsOf (plan.scrub joined) groups s) ∧
          (plan.matchFilters = [] → ¬ plan.MissesGroup groups ∧
            ∃ group, groups[plan.captureGroup]? = some group ∧
              plan.extract tokens = ResultFilter.applyAll plan.resultFilters group) ∧
          (plan.matchFilters ≠ [] →
            (plan.MissesGroup groups ↔
                (groups.filter (!·.isEmpty)).length ≤ plan.captureGroup) ∧
              (plan.MissesGroup groups → plan.extract tokens = "") ∧
              ∀ group, (groups.filter (!·.isEmpty))[plan.captureGroup]? = some group →
                plan.extract tokens = ResultFilter.applyAll plan.resultFilters group) := by
  obtain ⟨d, hd⟩ := hplan.exists_directive h
  obtain ⟨engine, text, hprogram, hback⟩ := hd.exists_program
  have hextract := plan.extract_of_join hjoin hjoined
  refine ⟨?_, ?_⟩
  · intro hmatch hright
    apply Option.isSome_iff_exists.1
    cases hdirection : plan.matcher.direction with
    | leftToRight => rwa [Matcher.isSome_groups?_of_leftToRight hdirection]
    | rightToLeft =>
      obtain ⟨hstart, hasks, hlimit⟩ := hright hdirection
      apply (Matcher.isSome_groups?_iff_reportsThere hdirection hlimit).2
      exact Matcher.reportsThere_of_isMatch (hback hdirection) hstart hasks hlimit hmatch
  · intro groups hgroups
    have hpick : plan.extract tokens = plan.pick groups := by
      rw [hextract, hgroups]
      rfl
    obtain ⟨s, hs⟩ := Matcher.groupsOf_groups? hprogram hgroups
    refine ⟨⟨s, hs⟩, ?_, ?_⟩
    · intro hfilters
      have hall : MatchFilter.applyAll plan.matchFilters groups = groups := by
        rw [hfilters]
        rfl
      have hlt : plan.captureGroup < groups.length := by
        rw [hs.length_eq]
        exact hd.captureGroup_lt
      have hget := List.getElem?_eq_getElem hlt
      refine ⟨?_, _, hget, ?_⟩
      · unfold SerialPlan.MissesGroup
        rw [hall, hget]
        exact Option.some_ne_none _
      · rw [hpick]
        apply SerialPlan.pick_of_getElem?
        rw [hall, hget]
    · intro hfilters
      have hall := MatchFilter.applyAll_of_ne_nil hfilters groups
      refine ⟨?_, ?_, ?_⟩
      · unfold SerialPlan.MissesGroup
        rw [hall, List.getElem?_eq_none_iff]
      · intro hmissing
        rw [hpick, SerialPlan.pick_of_missesGroup hmissing]
      · intro group hgroup
        rw [hpick]
        apply SerialPlan.pick_of_getElem?
        rw [hall, hgroup]

/-- A directive for the number behind an optional letter, from the right. -/
def optionalLetter : Config.Directive where
  dualPattern := some "([A-Z])?([0-9]+)"
  direction := .rightToLeft
  captureGroup := 1
  joinMethod := .concatenated
  matchFilters := ["remove-empty"]

/-- The letter takes no part in the match, so the number moves up to its place. -/
theorem extract_group_optional :
    ∃ t plan, ofConfig (lone optionalLetter) = .ok t ∧ t.HasPlan plan ∧
      plan.matchFilters ≠ [] ∧ plan.matcher.isMatch (plan.scrub "57") = true ∧
      plan.matcher.groups? (plan.scrub "57") = some ["57", "", "57"] ∧
      plan.matcher.groupCount = 3 ∧ ¬ plan.MissesGroup ["57", "", "57"] ∧
      plan.extract ["5", "7"] = "57" := by
  obtain ⟨t, plan, ht, hplan, hcompile⟩ := exists_lone (d := optionalLetter) (by decide +kernel)
  have hruns : (SerialPlan.compile (.directive "XTS" Place.serialKey) optionalLetter).toOption.any
      (fun plan => plan.matcher.isMatch (plan.scrub "57") &&
        (!plan.matcher.program.node.uses .movedStart &&
          (!plan.matcher.program.node.uses .searchStart &&
            (plan.matcher.neverGivesUp (plan.scrub "57") &&
              (plan.matcher.groups? (plan.scrub "57") == some ["57", "", "57"] &&
                (plan.captureGroup == 1 && (plan.matchFilters == [.removeEmpty] &&
                  plan.resultFilters == []))))))) = true := by
    decide +kernel
  rw [hcompile] at hruns
  obtain ⟨hmatch, hruns⟩ := Bool.and_eq_true_iff.1 hruns
  obtain ⟨hstart, hruns⟩ := Bool.and_eq_true_iff.1 hruns
  obtain ⟨hasks, hruns⟩ := Bool.and_eq_true_iff.1 hruns
  obtain ⟨hsearches, hruns⟩ := Bool.and_eq_true_iff.1 hruns
  obtain ⟨hgroups, hruns⟩ := Bool.and_eq_true_iff.1 hruns
  obtain ⟨hgroup, hruns⟩ := Bool.and_eq_true_iff.1 hruns
  obtain ⟨hfilters, hresult⟩ := Bool.and_eq_true_iff.1 hruns
  have hjoin : Token.join ["5", "7"] plan.joinMethod = some "57" := by
    rw [(SerialPlan.compile_ok hcompile).joinMethod]
    decide
  have hne : plan.matchFilters ≠ [] := by
    rw [eq_of_beq hfilters]
    exact List.cons_ne_nil _ _
  obtain ⟨hexists, hpicked⟩ := extract_group ht hplan hjoin (by decide)
  obtain ⟨groups, hfound⟩ := hexists hmatch fun _ =>
    ⟨by simpa using hstart, by simpa using hasks, Matcher.search_ne_gaveUp hsearches⟩
  obtain rfl : groups = ["57", "", "57"] :=
    Option.some.inj (hfound.symm.trans (eq_of_beq hgroups))
  obtain ⟨⟨s, hs⟩, _, hfiltered⟩ := hpicked _ hfound
  obtain ⟨hmissing, _, hserial⟩ := hfiltered hne
  rw [eq_of_beq hgroup] at hmissing hserial
  refine ⟨t, plan, ht, hplan, hne, hmatch, hfound, hs.length_eq.symm, ?_, ?_⟩
  · rw [hmissing]
    decide
  · rw [hserial "57" (by decide), eq_of_beq hresult]
    rfl

/-- A directive whose pattern moves the reported start, from the right. -/
def movedStart : Config.Directive where
  dualPattern := some "a\\Kb"
  direction := .rightToLeft
  joinMethod := .concatenated

/-- A pattern that moves the reported start may match and have no groups from the right. -/
theorem match_without_serial :
    ¬ ∀ (source : Config.Table) (t : CurrencyTable) (plan : SerialPlan) (tokens : List String)
      (joined : String), ofConfig source = .ok t → t.HasPlan plan →
        Token.join tokens plan.joinMethod = some joined → joined ≠ "" →
          plan.matcher.isMatch (plan.scrub joined) = true →
            ∃ groups, plan.matcher.groups? (plan.scrub joined) = some groups ∧
              groups.length = plan.matcher.groupCount := by
  intro hgroups
  obtain ⟨t, plan, ht, hplan, hcompile⟩ := exists_lone (d := movedStart) (by decide +kernel)
  have hruns : (SerialPlan.compile (.directive "XTS" Place.serialKey) movedStart).toOption.any
      (fun plan => plan.matcher.isMatch (plan.scrub "ab") &&
        (plan.matcher.groups? (plan.scrub "ab")).isNone) = true := by
    decide +kernel
  rw [hcompile] at hruns
  obtain ⟨hmatch, hnone⟩ := Bool.and_eq_true_iff.1 hruns
  have hjoin : Token.join ["ab"] plan.joinMethod = some "ab" := by
    rw [(SerialPlan.compile_ok hcompile).joinMethod]
    decide
  obtain ⟨groups, hsome, _⟩ := hgroups _ t plan ["ab"] "ab" ht hplan hjoin (by decide) hmatch
  rw [hsome] at hnone
  cases hnone

end CurrencyTable

end Banknote
