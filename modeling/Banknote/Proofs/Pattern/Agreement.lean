import Banknote.Proofs.Pattern.Rightmost

/-!
# Whether a pattern matches and whether it has groups

`isMatch` asks an ordinary search, while the groups are those of the match that is taken.  From the
left both come from the same search.  From the right a match counts only if it is reported to start
where a search for it starts, and only searches count before the first one that finds nothing.  So a
pattern that moves the reported start, or asks where the search started, may match and have no groups.

* Scans.  `isSome_scanFrom_iff`: the scan takes a match exactly if some search that it comes to finds
  one that is reported to start where the search starts.
* Starts.  `reportsThere_of_isMatch`: a match of any other pattern is found again from its start.

`isMatch_of_groups?` puts these together, and `match_without_groups` is a pattern that matches and
has no groups.  A pattern is one that `Reader.readPattern` reads; what it refuses is named there.
-/

namespace Banknote.Pattern.Matcher

variable {text : Array Char} {m : Matcher}

/-- Some search finds a match that is reported to start where the search starts, and every search from
a place before it finds something. -/
def ReportsThere (m : Matcher) (text : Array Char) : Prop :=
  ∃ place ≤ text.size, (∀ earlier < place, m.search text earlier ≠ .nothing) ∧
    ∃ tried s, m.search text place = .found tried s ∧ s.start = place

/-! ## Scans -/

theorem isSome_rightmost (best : Option State) (s : State) : (rightmost best s).isSome = true := by
  unfold rightmost
  split
  · rfl
  · split
    · rfl
    · rfl

theorem isSome_scanFrom_iff (hlimit : ∀ place ≤ text.size, m.search text place ≠ .gaveUp)
    {best : Option State} {place count : Nat} (hcount : place + count = text.size + 1) :
    (m.scanFrom text best place count).isSome = true ↔
      best.isSome = true ∨ ∃ later, place ≤ later ∧ later ≤ text.size ∧
        (∀ earlier, place ≤ earlier → earlier < later → m.search text earlier ≠ .nothing) ∧
          ∃ tried s, m.search text later = .found tried s ∧ s.start = later := by
  induction count generalizing best place with
  | zero =>
    constructor
    · exact .inl
    · rintro (hbest | ⟨later, hle, hlater, _⟩)
      · exact hbest
      · omega
  | succ count ih =>
    have hplace : place ≤ text.size := by omega
    unfold scanFrom
    cases hsearch : m.search text place with
    | gaveUp => exact absurd hsearch (hlimit place hplace)
    | nothing =>
      constructor
      · exact .inl
      · rintro (hbest | ⟨later, hle, hlater, hbefore, tried, s, hfound, _⟩)
        · exact hbest
        · rcases Nat.eq_or_lt_of_le hle with rfl | hlt
          · rw [hsearch] at hfound
            cases hfound
          · exact absurd hsearch (hbefore place (Nat.le_refl _) hlt)
    | found tried s =>
      dsimp only
      rw [ih (by omega)]
      by_cases hstart : s.start = place
      · -- The match is reported to start here, so both sides hold.
        rw [if_pos hstart]
        constructor
        · intro _
          exact .inr ⟨place, Nat.le_refl _, hplace, fun _ hle hlt => absurd hlt (Nat.not_lt.2 hle),
            tried, s, hsearch, hstart⟩
        · intro _
          exact .inl (isSome_rightmost best s)
      · rw [if_neg hstart]
        refine or_congr_right ⟨?_, ?_⟩
        · rintro ⟨later, hle, hlater, hbefore, hfound⟩
          refine ⟨later, by omega, hlater, fun earlier hearlier hlt => ?_, hfound⟩
          rcases Nat.eq_or_lt_of_le hearlier with rfl | hearlier
          · rw [hsearch]
            exact Landing.noConfusion
          · exact hbefore earlier hearlier hlt
        · rintro ⟨later, hle, hlater, hbefore, tried', s', hfound, hthere⟩
          rcases Nat.eq_or_lt_of_le hle with rfl | hlt
          · rw [hsearch] at hfound
            cases hfound
            exact absurd hthere hstart
          · exact ⟨later, hlt, hlater, fun earlier hearlier => hbefore earlier (by omega),
              tried', s', hfound, hthere⟩

/-! ## Starts -/

theorem isMatch_iff {text : String} :
    m.isMatch text = true ↔ ∃ tried s, m.search text.toList.toArray 0 = .found tried s := by
  unfold isMatch
  cases m.search text.toList.toArray 0 with
  | found tried s => exact ⟨fun _ => ⟨tried, s, rfl⟩, fun _ => rfl⟩
  | nothing => simp [Landing.state?]
  | gaveUp => simp [Landing.state?]

theorem isSome_groups?_iff {text : String} :
    (m.groups? text).isSome = true ↔ (m.match? text.toList.toArray).isSome = true := by
  rw [groups?, Option.isSome_map]

theorem isSome_groups?_of_leftToRight (hdirection : m.direction = .leftToRight) (text : String) :
    (m.groups? text).isSome = m.isMatch text := by
  rw [groups?, Option.isSome_map, match?, hdirection, isMatch]

/-- The first search of a scan that takes a match finds a match. -/
theorem isMatch_of_rightToLeft (hdirection : m.direction = .rightToLeft) {text : String}
    (h : (m.groups? text).isSome = true) : m.isMatch text = true := by
  rw [isSome_groups?_iff, match?, hdirection] at h
  dsimp only at h
  unfold scanFrom at h
  unfold isMatch
  cases hsearch : m.search text.toList.toArray 0 with
  | found tried s => rfl
  | nothing =>
    rw [hsearch] at h
    cases h
  | gaveUp =>
    rw [hsearch] at h
    cases h

theorem isSome_groups?_iff_reportsThere (hdirection : m.direction = .rightToLeft) {text : String}
    (hlimit : ∀ place ≤ text.length, m.search text.toList.toArray place ≠ .gaveUp) :
    (m.groups? text).isSome = true ↔ m.ReportsThere text.toList.toArray := by
  have hsize := size_toArray text
  rw [isSome_groups?_iff, match?, hdirection]
  dsimp only
  rw [isSome_scanFrom_iff (by rwa [hsize]) (Nat.zero_add _)]
  constructor
  · rintro (hnone | ⟨later, _, hlater, hbefore, hfound⟩)
    · cases hnone
    · exact ⟨later, hlater, fun earlier => hbefore earlier (Nat.zero_le _), hfound⟩
  · rintro ⟨place, hplace, hbefore, hfound⟩
    exact .inr ⟨place, Nat.zero_le _, hplace, fun earlier _ => hbefore earlier, hfound⟩

/-- A pattern that neither moves the reported start nor asks where the search started has groups from
the right where it matches. -/
theorem reportsThere_of_isMatch (hm : m.engine = .backtracking)
    (hstart : m.program.node.uses .movedStart = false)
    (hasks : m.program.node.uses .searchStart = false) {text : String}
    (hlimit : ∀ place ≤ text.length, m.search text.toList.toArray place ≠ .gaveUp)
    (h : m.isMatch text = true) : m.ReportsThere text.toList.toArray := by
  have hsize := size_toArray text
  obtain ⟨tried, s, hfound⟩ := isMatch_iff.1 h
  obtain ⟨_, htried, _, hpreferred⟩ := search_eq_found hm hfound
  obtain ⟨t, ht⟩ : ∃ t, m.preferred? text.toList.toArray tried = some t := by
    rw [← Option.ne_none_iff_exists']
    intro hnone
    rw [(preferred?_eq_none_iff hasks).2 hnone] at hpreferred
    cases hpreferred
  refine ⟨tried, htried, fun earlier hlt hnothing => ?_, tried, t, ?_, start_of_preferred hstart ht⟩
  · rw [none_of_search_eq_nothing hm hasks (Nat.le_of_lt hlt) htried hnothing] at ht
    cases ht
  · exact search_of_preferred hm htried (hlimit tried (hsize ▸ htried)) ht

/-! ## Patterns -/

/-- Whether no search of a text gives up. -/
def neverGivesUp (m : Matcher) (text : String) : Bool :=
  (List.range (text.length + 1)).all fun place => m.search text.toList.toArray place != .gaveUp

theorem search_ne_gaveUp {text : String} (h : m.neverGivesUp text = true) :
    ∀ place ≤ text.length, m.search text.toList.toArray place ≠ .gaveUp :=
  fun place hle =>
    bne_iff_ne.1 (List.all_eq_true.1 h place (List.mem_range.2 (Nat.lt_succ_of_le hle)))

theorem linear?_direction {source : String} (h : linear? source = some m) :
    m.direction = .leftToRight := by
  obtain ⟨program, _, rfl⟩ := Option.map_eq_some_iff.1 h
  rfl

/-- A pattern that has groups in a text matches it.  From the left the converse holds as well.  From
the right, unless a search gives up, there are groups exactly if some search that the scan comes to
finds a match that is reported to start where the search starts; there is such a search wherever the
pattern matches, if it neither moves the reported start nor asks where the search started. -/
theorem isMatch_of_groups? {source : String} {direction : Direction}
    (hm : linear? source = some m ∨ backtracking? source direction = some m) (text : String) :
    ((m.groups? text).isSome = true → m.isMatch text = true) ∧
      (m.direction = .leftToRight → m.isMatch text = true → (m.groups? text).isSome = true) ∧
      (m.direction = .rightToLeft →
        (∀ place ≤ text.length, m.search text.toList.toArray place ≠ .gaveUp) →
        ((m.groups? text).isSome = true ↔ m.ReportsThere text.toList.toArray) ∧
          ∀ reading, Reader.readPattern .backtracking source.toList = some reading →
            reading.expr.uses .movedStart = false → reading.expr.uses .searchStart = false →
              m.isMatch text = true → (m.groups? text).isSome = true) := by
  refine ⟨?_, ?_, ?_⟩
  · intro hgroups
    cases hdirection : m.direction with
    | leftToRight => rwa [isSome_groups?_of_leftToRight hdirection] at hgroups
    | rightToLeft => exact isMatch_of_rightToLeft hdirection hgroups
  · intro hdirection hmatch
    rwa [isSome_groups?_of_leftToRight hdirection]
  · intro hdirection hlimit
    -- A linear matcher searches from the left.
    have hback : backtracking? source direction = some m := by
      rcases hm with hlinear | hback
      · rw [linear?_direction hlinear] at hdirection
        cases hdirection
      · exact hback
    obtain ⟨hengine, _, hprogram⟩ := backtracking?_eq_some hback
    have hgroups := isSome_groups?_iff_reportsThere hdirection hlimit
    refine ⟨hgroups, ?_⟩
    intro reading hread hkeep hnot hmatch
    apply hgroups.2
    exact reportsThere_of_isMatch hengine (uses_compile hread hprogram hkeep)
      (uses_compile hread hprogram hnot) hlimit hmatch

/-- One branch moves the reported start.  The other one does not, and it is there that the match is
taken. -/
theorem isMatch_of_groups?_seven :
    ∃ m, backtracking? "5\\K5|7" .rightToLeft = some m ∧ m.groups? "557" = some ["7"] ∧
      m.isMatch "557" = true ∧ m.ReportsThere "557".toList.toArray := by
  have hruns : (backtracking? "5\\K5|7" .rightToLeft).any (fun m =>
      m.groups? "557" == some ["7"] && m.neverGivesUp "557") = true := by
    decide +kernel
  obtain ⟨m, hm, hruns⟩ := (Option.any_eq_true _ _).1 hruns
  obtain ⟨hgroups, hsearches⟩ := Bool.and_eq_true_iff.1 hruns
  have hgroups : m.groups? "557" = some ["7"] := eq_of_beq hgroups
  have hsome : (m.groups? "557").isSome = true := by rw [hgroups, Option.isSome_some]
  obtain ⟨hmatch, _, hright⟩ := isMatch_of_groups? (.inr hm) "557"
  obtain ⟨hthere, _⟩ := hright (backtracking?_eq_some hm).2.1 (search_ne_gaveUp hsearches)
  exact ⟨m, hm, hgroups, hmatch hsome, hthere.1 hsome⟩

/-- From the right a pattern may match without having groups, and not because a search gave up: here
the only match is tried at the `a` and reported to start at the `b`. -/
theorem match_without_groups :
    ¬ ∀ (source : String) (direction : Direction) (m : Matcher),
      backtracking? source direction = some m → ∀ text : String,
        (∀ place ≤ text.length, m.search text.toList.toArray place ≠ .gaveUp) →
          (m.isMatch text = true ↔ (m.groups? text).isSome = true) := by
  intro hagree
  have hruns : (backtracking? "a\\Kb" .rightToLeft).any (fun m =>
      (m.isMatch "ab" && (m.groups? "ab").isNone) && m.neverGivesUp "ab") = true := by
    decide +kernel
  obtain ⟨m, hm, hruns⟩ := (Option.any_eq_true _ _).1 hruns
  obtain ⟨hruns, hsearches⟩ := Bool.and_eq_true_iff.1 hruns
  obtain ⟨hmatch, hnone⟩ := Bool.and_eq_true_iff.1 hruns
  have hsome := (hagree _ _ m hm "ab" (search_ne_gaveUp hsearches)).1 hmatch
  rw [Option.isNone_iff_eq_none.1 hnone] at hsome
  cases hsome

end Banknote.Pattern.Matcher
