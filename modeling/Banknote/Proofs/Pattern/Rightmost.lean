import Banknote.Proofs.Pattern.Backtrack
import Banknote.Proofs.Pattern.Starts

/-!
# The match that is taken from the right

From the right, the match that is taken is one of those that the pattern prefers at the places of the
text: the one that ends last, and of those the one that starts first.

The scan starts a search from one place after the other.  A search that lands at a later place has
passed over no match that starts where it started.  The scan stops at the first search that finds
nothing: no match starts behind that place, unless the pattern asks where the search started.

* Attempts.  `attempt_eq_ofOutcome`: what is tried at a place comes to the preferred match.
* Searches.  `surveyed_search`: a search lands at the first place with a match.
* Scans.  `Scanned` is the invariant of a scan: the best match is known of the places that are
  behind.  `StopsAt` says where a scan stops, and `none_of_stopsAt` that nothing is missed there.

`groups?_rightToLeft` is about the groups of the match that is taken, `candidate_unsearched` about a
match that the scan stops before.  A pattern is one that `Reader.readPattern` reads; what it refuses
is named there.
-/

namespace Banknote.Pattern.Matcher

variable {text : Array Char} {m : Matcher}

/-! ## Attempts -/

/-- The match that the pattern prefers of those that start at a place, in a search that started there
unless said otherwise. -/
def preferred? (m : Matcher) (text : Array Char) (place : Nat) (origin : Nat := place) :
    Option State :=
  (ways text m.program.node (.init place origin)).head?

/-- Another search prefers the same match, unless the pattern asks where the search started. -/
theorem preferred?_origin (h : m.program.node.uses .searchStart = false) (place origin : Nat) :
    m.preferred? text place origin = (m.preferred? text place).map (.searchedFrom origin) := by
  have hways : ways text m.program.node _ = _ := ways_searchedFrom h origin (.init place)
  unfold preferred?
  rw [← List.head?_map, ← hways]
  rfl

theorem preferred?_eq_none_iff (h : m.program.node.uses .searchStart = false)
    {place origin : Nat} :
    m.preferred? text place origin = none ↔ m.preferred? text place = none := by
  rw [preferred?_origin h, Option.map_eq_none_iff]

theorem priced_attempt (hm : m.engine = .backtracking) (origin place : Nat) :
    Priced (m.attempt text origin place) (m.preferred? text place origin) := by
  have hlinear : m.isLinear = m.program.node.isPlain := by
    rw [isLinear, hm]
    rfl
  unfold attempt
  rw [hlinear]
  by_cases hplain : m.program.node.isPlain = true
  · simp only [if_pos hplain]
    exact priced_firstEnd hplain _
  · simp only [if_neg hplain]
    exact priced_run_found (follows_run _) _

/-- An attempt that does not give up comes to the preferred match. -/
theorem attempt_eq_ofOutcome (hm : m.engine = .backtracking) {origin place left : Nat}
    (h : m.attempt text origin place left ≠ .gaveUp) :
    ∃ left', m.attempt text origin place left =
      .ofOutcome (m.preferred? text place origin) left' := by
  obtain ⟨price, hprice⟩ : Priced (m.attempt text origin place) _ := priced_attempt hm origin place
  have hle : price ≤ left := by
    by_contra hlt
    exact h ((hprice left).trans (if_neg hlt))
  exact ⟨left - price, (hprice left).trans (if_pos hle)⟩

/-! ## Searches -/

/-- No match starts from a place on before another one, in a search that started somewhere. -/
def NoneFrom (m : Matcher) (text : Array Char) (origin first stop : Nat) : Prop :=
  ∀ place, first ≤ place → place < stop → m.preferred? text place origin = none

/-- What a landing says about the places from one on before another one. -/
inductive Surveyed (m : Matcher) (text : Array Char) (origin place stop : Nat) : Landing → Prop
  | found {tried : Nat} {s : State} (hle : place ≤ tried) (hlt : tried < stop)
    (hnone : m.NoneFrom text origin place tried)
    (hpreferred : m.preferred? text tried origin = some s) :
    Surveyed m text origin place stop (.found tried s)
  | nothing (hnone : m.NoneFrom text origin place stop) : Surveyed m text origin place stop .nothing
  | gaveUp : Surveyed m text origin place stop .gaveUp

theorem NoneFrom.cons {origin first stop : Nat} (hfirst : m.preferred? text first origin = none)
    (h : m.NoneFrom text origin (first + 1) stop) : m.NoneFrom text origin first stop := by
  intro place hle hlt
  rcases Nat.eq_or_lt_of_le hle with rfl | hle
  · exact hfirst
  · exact h place hle hlt

theorem surveyed_searchFrom (hm : m.engine = .backtracking) (origin left place count : Nat) :
    Surveyed m text origin place (place + count) (m.searchFrom text origin left place count) := by
  have hempty : ∀ first, m.NoneFrom text origin first first :=
    fun _ _ hle hlt => absurd hlt (Nat.not_lt.2 hle)
  induction count generalizing left place with
  | zero => exact .nothing (hempty place)
  | succ count ih =>
    unfold searchFrom
    by_cases hgaveUp : m.attempt text origin place left = .gaveUp
    · rw [hgaveUp]
      exact .gaveUp
    · obtain ⟨left', hattempt⟩ := attempt_eq_ofOutcome hm hgaveUp
      rw [hattempt]
      cases hpreferred : m.preferred? text place origin with
      | some s => exact .found (Nat.le_refl _) (by omega) (hempty place) hpreferred
      | none =>
        have hrest := ih left' (place + 1)
        rw [Nat.add_right_comm] at hrest
        change Surveyed m text origin place _ (m.searchFrom text origin left' (place + 1) count)
        generalize m.searchFrom text origin left' (place + 1) count = landing at hrest
        cases hrest with
        | found hle hlt hbetween hfound =>
          exact .found (by omega) hlt (hbetween.cons hpreferred) hfound
        | nothing hbetween => exact .nothing (hbetween.cons hpreferred)
        | gaveUp => exact .gaveUp

/-- A search lands at the first place with a match. -/
theorem surveyed_search (hm : m.engine = .backtracking) {place : Nat} (hplace : place ≤ text.size) :
    Surveyed m text place place (text.size + 1) (m.search text place) := by
  have hsearch : Surveyed m text place place (place + (text.size + 1 - place))
      (m.search text place) := surveyed_searchFrom hm _ _ _ _
  have hstop : place + (text.size + 1 - place) = text.size + 1 := by omega
  rwa [hstop] at hsearch

theorem search_eq_found (hm : m.engine = .backtracking) {place tried : Nat} {s : State}
    (h : m.search text place = .found tried s) :
    place ≤ tried ∧ tried ≤ text.size ∧ m.NoneFrom text place place tried ∧
      m.preferred? text tried place = some s := by
  rcases Nat.lt_or_ge text.size place with hlt | hge
  · have hcount : text.size + 1 - place = 0 := by omega
    rw [search, hcount] at h
    cases h
  · have hsearch : Surveyed m text place place _ (m.search text place) := surveyed_search hm hge
    rw [h] at hsearch
    cases hsearch with
    | found hle hlt hnone hpreferred => exact ⟨hle, Nat.le_of_lt_succ hlt, hnone, hpreferred⟩

theorem search_eq_nothing (hm : m.engine = .backtracking) {place : Nat}
    (hplace : place ≤ text.size) (h : m.search text place = .nothing) :
    m.NoneFrom text place place (text.size + 1) := by
  have hsearch : Surveyed m text place place _ (m.search text place) := surveyed_search hm hplace
  rw [h] at hsearch
  cases hsearch with
  | nothing hnone => exact hnone

/-- Where a search finds nothing, no match starts there or later, unless the pattern asks where the
search started. -/
theorem none_of_search_eq_nothing (hm : m.engine = .backtracking)
    (hasks : m.program.node.uses .searchStart = false) {place later : Nat} (hle : place ≤ later)
    (hlater : later ≤ text.size) (h : m.search text place = .nothing) :
    m.preferred? text later = none :=
  (preferred?_eq_none_iff hasks).1
    (search_eq_nothing hm (Nat.le_trans hle hlater) h later hle (Nat.lt_succ_of_le hlater))

/-- A search that starts at a match finds it, if it does not give up. -/
theorem search_of_preferred (hm : m.engine = .backtracking) {place : Nat}
    (hplace : place ≤ text.size) (hlimit : m.search text place ≠ .gaveUp) {s : State}
    (h : m.preferred? text place = some s) : m.search text place = .found place s := by
  have hsearch : Surveyed m text place place _ (m.search text place) := surveyed_search hm hplace
  cases hlanding : m.search text place with
  | found tried t =>
    rw [hlanding] at hsearch
    cases hsearch with
    | found hle _ hnone hpreferred =>
      rcases Nat.eq_or_lt_of_le hle with rfl | hlt
      · rw [Option.some.inj (hpreferred.symm.trans h)]
      · rw [hnone place (Nat.le_refl _) hlt] at h
        cases h
  | nothing =>
    rw [search_eq_nothing hm hplace hlanding place (Nat.le_refl _) (Nat.lt_succ_of_le hplace)] at h
    cases h
  | gaveUp => exact absurd hlanding hlimit

/-! ## Scans -/

/-- A match is the best of those before a place: the one that ends last, and of those the first. -/
structure IsRightmost (m : Matcher) (text : Array Char) (stop place : Nat) (s : State) : Prop where
  lt_stop : place < stop
  preferred : m.preferred? text place = some s
  best : ∀ place' s', place' < stop → m.preferred? text place' = some s' →
    s'.pos < s.pos ∨ s'.pos = s.pos ∧ place ≤ place'

theorem IsRightmost.unique {stop place place' : Nat} {s s' : State}
    (h : m.IsRightmost text stop place s) (h' : m.IsRightmost text stop place' s') : s = s' := by
  have hle := h.best place' s' h'.lt_stop h'.preferred
  have hle' := h'.best place s h.lt_stop h.preferred
  obtain rfl : place = place' := by omega
  exact Option.some.inj (h.preferred.symm.trans h'.preferred)

/-- The best match is known of those before a place. -/
def Scanned (m : Matcher) (text : Array Char) (stop : Nat) : Option State → Prop
  | none => ∀ place < stop, m.preferred? text place = none
  | some s => ∃ place, m.IsRightmost text stop place s

/-- A place at which no match starts adds nothing. -/
theorem Scanned.skip {place : Nat} {best : Option State} (h : m.Scanned text place best)
    (hnone : m.preferred? text place = none) : m.Scanned text (place + 1) best := by
  cases best with
  | none =>
    intro t hlt
    rcases Nat.lt_succ_iff_lt_or_eq.1 hlt with hbefore | rfl
    · exact h t hbefore
    · exact hnone
  | some b =>
    obtain ⟨first, hfirst⟩ := h
    refine ⟨first, Nat.lt_succ_of_lt hfirst.lt_stop, hfirst.preferred, fun t s hlt ht => ?_⟩
    rcases Nat.lt_succ_iff_lt_or_eq.1 hlt with hbefore | rfl
    · exact hfirst.best t s hbefore ht
    · rw [hnone] at ht
      cases ht

theorem Scanned.rightmost {place : Nat} {best : Option State} (h : m.Scanned text place best)
    {s : State} (hs : m.preferred? text place = some s) :
    m.Scanned text (place + 1) (rightmost best s) := by
  have hthere : ∀ {t s'}, t < place + 1 → ¬ t < place → m.preferred? text t = some s' →
      t = place ∧ s' = s := by
    intro t s' hlt hge ht
    obtain rfl : t = place := by omega
    exact ⟨rfl, Option.some.inj (ht.symm.trans hs)⟩
  unfold Matcher.rightmost
  split
  · refine ⟨place, Nat.lt_succ_self _, hs, fun t s' hlt ht => ?_⟩
    by_cases hbefore : t < place
    · rw [h t hbefore] at ht
      cases ht
    · obtain ⟨rfl, rfl⟩ := hthere hlt hbefore ht
      exact .inr ⟨rfl, Nat.le_refl _⟩
  · rename_i b
    obtain ⟨first, hfirst⟩ := h
    split
    · rename_i hlater
      refine ⟨place, Nat.lt_succ_self _, hs, fun t s' hlt ht => ?_⟩
      by_cases hbefore : t < place
      · have hbest := hfirst.best t s' hbefore ht
        exact .inl (by omega)
      · obtain ⟨rfl, rfl⟩ := hthere hlt hbefore ht
        exact .inr ⟨rfl, Nat.le_refl _⟩
    · rename_i hlater
      have hplace := hfirst.lt_stop
      refine ⟨first, Nat.lt_succ_of_lt hplace, hfirst.preferred, fun t s' hlt ht => ?_⟩
      by_cases hbefore : t < place
      · exact hfirst.best t s' hbefore ht
      · obtain ⟨rfl, rfl⟩ := hthere hlt hbefore ht
        omega

theorem Scanned.eq_some_iff {stop : Nat} {best : Option State} (h : m.Scanned text stop best)
    {s : State} : best = some s ↔ ∃ place, m.IsRightmost text stop place s := by
  constructor
  · rintro rfl
    exact h
  · rintro ⟨place, hplace⟩
    cases best with
    | none =>
      have hnone := h place hplace.lt_stop
      rw [hplace.preferred] at hnone
      cases hnone
    | some b =>
      obtain ⟨first, hfirst⟩ := h
      rw [hfirst.unique hplace]

theorem Scanned.eq_none_iff {stop : Nat} {best : Option State} (h : m.Scanned text stop best) :
    best = none ↔ ∀ place < stop, m.preferred? text place = none := by
  constructor
  · rintro rfl
    exact h
  · intro hnone
    cases best with
    | none => rfl
    | some b =>
      obtain ⟨first, hfirst⟩ := h
      have hpreferred := hfirst.preferred
      rw [hnone first hfirst.lt_stop] at hpreferred
      cases hpreferred

/-- The preferred match at a place is reported to start there if the pattern does not move the
start. -/
theorem start_of_preferred (hstart : m.program.node.uses .movedStart = false) {place origin : Nat}
    {s : State} (h : m.preferred? text place origin = some s) : s.start = place :=
  (leads_of_mem_ways (List.mem_of_mem_head? h)).start_eq hstart

/-- A scan stops at a place: at the first one from which a search finds nothing, or behind the end of
the text. -/
structure StopsAt (m : Matcher) (text : Array Char) (stop : Nat) : Prop where
  le : stop ≤ text.size + 1
  before : ∀ place < stop, m.search text place ≠ .nothing
  nothing : stop ≤ text.size → m.search text stop = .nothing

/-- No match starts behind the place where a scan stops, unless the pattern asks where the search
started. -/
theorem none_of_stopsAt (hm : m.engine = .backtracking)
    (hasks : m.program.node.uses .searchStart = false) {stop later : Nat}
    (h : m.StopsAt text stop) (hle : stop ≤ later) (hlater : later ≤ text.size) :
    m.preferred? text later = none :=
  none_of_search_eq_nothing hm hasks hle hlater (h.nothing (Nat.le_trans hle hlater))

/-- A scan that comes to a match, or in which no search gives up, has considered the matches of all
places up to where it stops. -/
theorem Scanned.scanFrom {best : Option State} {place count : Nat}
    (h : m.Scanned text place best) (hm : m.engine = .backtracking)
    (hstart : m.program.node.uses .movedStart = false)
    (hlimit : m.scanFrom text best place count = none →
      ∀ place ≤ text.size, m.search text place ≠ .gaveUp)
    (hcount : place + count = text.size + 1)
    (hbefore : ∀ earlier < place, m.search text earlier ≠ .nothing) :
    ∃ stop, m.StopsAt text stop ∧ m.Scanned text stop (m.scanFrom text best place count) := by
  induction count generalizing best place with
  | zero =>
    obtain rfl : place = text.size + 1 := hcount
    exact ⟨text.size + 1, ⟨Nat.le_refl _, hbefore, fun hle => absurd hle (Nat.not_succ_le_self _)⟩, h⟩
  | succ count ih =>
    have hplace : place ≤ text.size := by omega
    unfold Matcher.scanFrom at hlimit ⊢
    cases hsearch : m.search text place with
    | gaveUp =>
      rw [hsearch] at hlimit
      exact absurd hsearch (hlimit rfl place hplace)
    | nothing => exact ⟨place, ⟨Nat.le_succ_of_le hplace, hbefore, fun _ => hsearch⟩, h⟩
    | found tried s =>
      rw [hsearch] at hlimit
      dsimp only at hlimit ⊢
      obtain ⟨hle, _, hnone, hpreferred⟩ := search_eq_found hm hsearch
      have hbefore' : ∀ earlier < place + 1, m.search text earlier ≠ .nothing := by
        intro earlier hlt
        rcases Nat.lt_succ_iff_lt_or_eq.1 hlt with hlt | rfl
        · exact hbefore earlier hlt
        · rw [hsearch]
          exact Landing.noConfusion
      -- The start was not moved, so the match counts if it was tried where the search started.
      have hreported := start_of_preferred hstart hpreferred
      rcases Nat.eq_or_lt_of_le hle with rfl | hlt
      · rw [if_pos hreported] at hlimit ⊢
        exact ih (h.rightmost hpreferred) hlimit (by omega) hbefore'
      · rw [if_neg (by omega)] at hlimit ⊢
        exact ih (h.skip (hnone place (Nat.le_refl _) hlt)) hlimit (by omega) hbefore'

/-! ## The match that is taken -/

theorem backtracking?_eq_some {source : String} {direction : Direction}
    (h : backtracking? source direction = some m) :
    m.engine = .backtracking ∧ m.direction = direction ∧
      Program.compile? .backtracking source.toList = some m.program := by
  obtain ⟨program, hprogram, rfl⟩ := Option.map_eq_some_iff.1 h
  exact ⟨rfl, rfl, hprogram⟩

theorem size_toArray (text : String) : text.toList.toArray.size = text.length := by
  rw [List.size_toArray, String.length_toList]

/-- The match that is taken from the right is the best of those up to the place where the scan
stops. -/
theorem scanned_match? (hm : m.engine = .backtracking) (hdirection : m.direction = .rightToLeft)
    (hstart : m.program.node.uses .movedStart = false)
    (hlimit : m.match? text = none → ∀ place ≤ text.size, m.search text place ≠ .gaveUp) :
    ∃ stop, m.StopsAt text stop ∧ m.Scanned text stop (m.match? text) := by
  have hmatch : m.match? text = m.scanFrom text none 0 (text.size + 1) := by
    rw [match?, hdirection]
  have hfirst : m.Scanned text 0 none := fun _ hlt => absurd hlt (Nat.not_lt_zero _)
  rw [hmatch] at hlimit ⊢
  exact hfirst.scanFrom hm hstart hlimit (Nat.zero_add _) fun _ hlt => absurd hlt (Nat.not_lt_zero _)

/-- What the groups of the match that is taken say of the places up to one. -/
theorem Scanned.groups?_iff {text : String} {stop : Nat}
    (h : m.Scanned text.toList.toArray stop (m.match? text.toList.toArray)) :
    (m.groups? text = none ↔ ∀ place < stop, m.preferred? text.toList.toArray place = none) ∧
      ∀ groups, m.groups? text = some groups ↔ ∃ place s,
        m.IsRightmost text.toList.toArray stop place s ∧
          groups = (List.range m.groupCount).map (groupText text.toList.toArray s) := by
  refine ⟨?_, fun groups => ?_⟩
  · rw [groups?, Option.map_eq_none_iff, h.eq_none_iff]
  · simp only [groups?, Option.map_eq_some_iff, h.eq_some_iff]
    constructor
    · rintro ⟨s, ⟨place, hplace⟩, rfl⟩
      exact ⟨place, s, hplace, rfl⟩
    · rintro ⟨place, s, hplace, rfl⟩
      exact ⟨s, ⟨place, hplace⟩, rfl⟩

/-- A scan that has come to the place where nothing more is found has come to the end. -/
theorem Scanned.of_stopsAt {stop : Nat} {best : Option State} (h : m.Scanned text stop best)
    (hstop : m.StopsAt text stop) (hm : m.engine = .backtracking)
    (hasks : m.program.node.uses .searchStart = false) :
    m.Scanned text (text.size + 1) best := by
  have hsteps : ∀ count, stop + count ≤ text.size + 1 → m.Scanned text (stop + count) best := by
    intro count hcount
    induction count with
    | zero => exact h
    | succ count ih =>
      have hnone : m.preferred? text (stop + count) = none :=
        none_of_stopsAt hm hasks hstop (Nat.le_add_right _ _) (by omega)
      exact (ih (by omega)).skip hnone
  have hall := hsteps (text.size + 1 - stop) (by have := hstop.le; omega)
  rwa [Nat.add_sub_cancel' hstop.le] at hall

/-- From the right, a pattern that does not move the reported start has no groups exactly if no match
starts before the place where the scan stops.  Otherwise it has the groups of the match that ends last
and, of those, starts first.  A search that lands at a later place has passed over no match that
starts where the search started.  A pattern that does not ask where the search started leaves no match
behind the place where the scan stops, so of such a pattern every place counts. -/
theorem groups?_rightToLeft {source : String} (hm : backtracking? source .rightToLeft = some m)
    {reading : Reader.Reading}
    (hread : Reader.readPattern .backtracking source.toList = some reading)
    (hkeep : reading.expr.uses .movedStart = false) {text : String}
    (hlimit : ∀ place ≤ text.length, m.search text.toList.toArray place ≠ .gaveUp) :
    (∃ stop, m.StopsAt text.toList.toArray stop ∧
        (m.groups? text = none ↔
          ∀ place < stop, m.preferred? text.toList.toArray place = none) ∧
        ∀ groups, m.groups? text = some groups ↔ ∃ place s,
          m.IsRightmost text.toList.toArray stop place s ∧
            groups = (List.range m.groupCount).map (groupText text.toList.toArray s)) ∧
      (∀ place tried s, m.search text.toList.toArray place = .found tried s → place < tried →
        m.preferred? text.toList.toArray place = none) ∧
      (reading.expr.uses .searchStart = false →
        (∀ place ≤ text.length, m.search text.toList.toArray place = .nothing →
          ∀ later, place ≤ later → later ≤ text.length →
            m.preferred? text.toList.toArray later = none) ∧
        (m.groups? text = none ↔
          ∀ place ≤ text.length, m.preferred? text.toList.toArray place = none) ∧
        ∀ groups, m.groups? text = some groups ↔ ∃ place s,
          m.IsRightmost text.toList.toArray (text.length + 1) place s ∧
            groups = (List.range m.groupCount).map (groupText text.toList.toArray s)) := by
  obtain ⟨hengine, hdirection, hprogram⟩ := backtracking?_eq_some hm
  have hstart := uses_compile hread hprogram hkeep
  have hsize := size_toArray text
  have hlimit : ∀ place ≤ text.toList.toArray.size,
      m.search text.toList.toArray place ≠ .gaveUp := by rwa [hsize]
  obtain ⟨stop, hstop, hscanned⟩ := scanned_match? hengine hdirection hstart fun _ => hlimit
  refine ⟨⟨stop, hstop, hscanned.groups?_iff⟩, fun place tried s hsearch hlt => ?_, fun hnot => ?_⟩
  · obtain ⟨_, _, hnone, _⟩ := search_eq_found hengine hsearch
    exact hnone place (Nat.le_refl _) hlt
  · have hasks := uses_compile hread hprogram hnot
    have hall := hscanned.of_stopsAt hstop hengine hasks
    rw [hsize] at hall
    refine ⟨fun place _ hsearch later hle hlater => ?_, ?_, hall.groups?_iff.2⟩
    · exact none_of_search_eq_nothing hengine hasks hle (hsize.symm ▸ hlater) hsearch
    · exact hall.groups?_iff.1.trans
        (forall_congr' fun place => imp_congr_left Nat.lt_succ_iff)

/-- Of the three fives at which a match may start, the last one is taken: the one before it stands
behind an `x`. -/
theorem groups?_rightToLeft_fives :
    ∃ m, backtracking? "(?<!x)(5+)" .rightToLeft = some m ∧
      m.groups? "55x55" = some ["5", "5"] ∧
      ∃ place s, m.IsRightmost "55x55".toList.toArray 6 place s ∧
        ["5", "5"] = (List.range m.groupCount).map (groupText "55x55".toList.toArray s) := by
  have hsearches : (backtracking? "(?<!x)(5+)" .rightToLeft).any (fun m =>
      m.groups? "55x55" == some ["5", "5"] &&
        (List.range 6).all fun place => m.search "55x55".toList.toArray place != .gaveUp) = true := by
    decide +kernel
  have hreads : (Reader.readPattern .backtracking "(?<!x)(5+)".toList).any
      (fun reading => !reading.expr.uses .movedStart && !reading.expr.uses .searchStart) = true := by
    decide +kernel
  obtain ⟨m, hm, hsearches⟩ := (Option.any_eq_true _ _).1 hsearches
  obtain ⟨reading, hread, huses⟩ := (Option.any_eq_true _ _).1 hreads
  obtain ⟨hgroups, hsearches⟩ := Bool.and_eq_true_iff.1 hsearches
  obtain ⟨hkeep, hasks⟩ := Bool.and_eq_true_iff.1 huses
  have hlimit : ∀ place ≤ "55x55".length, m.search "55x55".toList.toArray place ≠ .gaveUp :=
    fun place hle =>
      bne_iff_ne.1 (List.all_eq_true.1 hsearches place (List.mem_range.2 (Nat.lt_succ_of_le hle)))
  obtain ⟨_, _, hevery⟩ := groups?_rightToLeft hm hread (by simpa using hkeep) hlimit
  obtain ⟨_, _, htaken⟩ := hevery (by simpa using hasks)
  have hgroups : m.groups? "55x55" = some ["5", "5"] := eq_of_beq hgroups
  exact ⟨m, hm, hgroups, (htaken _).1 hgroups⟩

/-- The scan may stop before a match: no search from the start of the text finds a `b` where the
search started, so the place at which a search would find one is never searched from. -/
theorem candidate_unsearched :
    ¬ ∀ (source : String) (m : Matcher) (reading : Reader.Reading),
      backtracking? source .rightToLeft = some m →
      Reader.readPattern .backtracking source.toList = some reading →
      reading.expr.uses .movedStart = false → ∀ text : String,
        (∀ place ≤ text.length, m.search text.toList.toArray place ≠ .gaveUp) →
          (m.groups? text = none ↔
            ∀ place ≤ text.length, m.preferred? text.toList.toArray place = none) := by
  intro hlaw
  have hreads : (Reader.readPattern .backtracking "\\Gb".toList).any
      (fun reading => !reading.expr.uses .movedStart) = true := by decide +kernel
  have hruns : (backtracking? "\\Gb" .rightToLeft).any (fun m =>
      ((m.groups? "ab").isNone && (m.preferred? "ab".toList.toArray 1).isSome) &&
        (List.range 3).all fun place => m.search "ab".toList.toArray place != .gaveUp) = true := by
    decide +kernel
  obtain ⟨reading, hread, hkeep⟩ := (Option.any_eq_true _ _).1 hreads
  obtain ⟨m, hm, hruns⟩ := (Option.any_eq_true _ _).1 hruns
  obtain ⟨hruns, hsearches⟩ := Bool.and_eq_true_iff.1 hruns
  obtain ⟨hnone, hsome⟩ := Bool.and_eq_true_iff.1 hruns
  have hlimit : ∀ place ≤ "ab".length, m.search "ab".toList.toArray place ≠ .gaveUp :=
    fun place hle =>
      bne_iff_ne.1 (List.all_eq_true.1 hsearches place (List.mem_range.2 (Nat.lt_succ_of_le hle)))
  have hmissed := (hlaw _ m reading hm hread (by simpa using hkeep) "ab" hlimit).1
    (Option.isNone_iff_eq_none.1 hnone) 1 (by decide)
  rw [hmissed] at hsome
  cases hsome

end Banknote.Pattern.Matcher
