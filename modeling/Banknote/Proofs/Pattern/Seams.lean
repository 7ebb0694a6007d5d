import Banknote.Proofs.Pattern.Linear
import Banknote.Proofs.Pattern.Locality
import Banknote.Proofs.Pattern.Reading
import Banknote.Proofs.Pattern.Removal
import Banknote.Proofs.Pattern.Starts
import Mathlib.Data.List.Basic

/-!
# Seams

Taking matches out of a text brings characters together that did not stand together before.  The
places where that happens are the seams of what is left.

* Characters.  `Picks` says at which places of a text the characters stand that are left of it.
  `survivors` are these places after some matchers took out their matches, one after the other.
* Matches.  `exists_span`: every place at which a pattern matches lies in a match that is taken out,
  unless the pattern matches without a character somewhere.
* Seams.  `Picks.reads`: what is left reads as the text does between two seams.

`exists_seam` puts these together: a match in what is left runs over a seam.
-/

namespace Banknote.Pattern

variable {text left : Array Char}

/-! ## Characters -/

/-- The characters that are left stand in a text at some places, in their order. -/
structure Picks (kept : List Nat) (text left : Array Char) : Prop where
  ascending : kept.Pairwise (· < ·)
  chars : left.toList.map some = kept.map (text[·]?)

namespace Picks

variable {kept : List Nat}

theorem length_eq (h : Picks kept text left) : kept.length = left.size := by
  have hlength := congrArg List.length h.chars
  rw [List.length_map, List.length_map, Array.length_toList] at hlength
  exact hlength.symm

theorem getElem? (h : Picks kept text left) {pos place : Nat} (hplace : kept[pos]? = some place) :
    left[pos]? = text[place]? := by
  have hchars := congrArg (·[pos]?) h.chars
  simp only [List.getElem?_map, hplace, Option.map_some, Array.getElem?_toList] at hchars
  obtain ⟨c, hc, heq⟩ := Option.map_eq_some_iff.1 hchars
  rw [hc, heq]

theorem lt_size (h : Picks kept text left) {place : Nat} (hplace : place ∈ kept) :
    place < text.size := by
  obtain ⟨pos, hpos⟩ := List.getElem?_of_mem hplace
  have hlt : pos < left.size := by
    rw [← h.length_eq]
    exact (List.getElem?_eq_some_iff.1 hpos).1
  have hchar := h.getElem? hpos
  rw [Array.getElem?_eq_getElem hlt] at hchar
  exact (Array.getElem?_eq_some_iff.1 hchar.symm).1

theorem refl (text : Array Char) : Picks (List.range text.size) text text := by
  refine ⟨List.pairwise_lt_range, ?_⟩
  refine List.ext_getElem (by simp) fun pos h h' => ?_
  simp

/-- A place is left from a place on, or the end of the text. -/
theorem getElem?_getD (h : Picks kept text left) {pos : Nat} (hpos : pos < left.size) (last : Nat) :
    kept[pos]? = some (kept.getD pos last) := by
  rw [← h.length_eq] at hpos
  rw [List.getD_eq_getElem?_getD, List.getElem?_eq_getElem hpos, Option.getD_some]

theorem getD_lt_getD (h : Picks kept text left) {pos pos' : Nat} (hlt : pos < pos')
    (hpos' : pos' < left.size) (last last' : Nat) : kept.getD pos last < kept.getD pos' last' := by
  have hget := h.getElem?_getD (Nat.lt_trans hlt hpos') last
  have hget' := h.getElem?_getD hpos' last'
  obtain ⟨hlength, heq⟩ := List.getElem?_eq_some_iff.1 hget
  obtain ⟨hlength', heq'⟩ := List.getElem?_eq_some_iff.1 hget'
  rw [← heq, ← heq']
  exact List.pairwise_iff_getElem.1 h.ascending pos pos' hlength hlength' hlt

/-- What is left of what is left. -/
theorem trans {mid : Array Char} {kept' : List Nat} (h : Picks kept text mid)
    (h' : Picks kept' mid left) : Picks (kept'.map (kept.getD · 0)) text left := by
  constructor
  · rw [List.pairwise_map]
    refine h'.ascending.imp_of_mem fun {pos pos'} _ hpos' hlt => ?_
    exact h.getD_lt_getD hlt (h'.lt_size hpos') 0 0
  · rw [h'.chars, List.map_map]
    refine List.map_congr_left fun pos hpos => ?_
    exact h.getElem? (h.getElem?_getD (h'.lt_size hpos) 0)

end Picks

theorem toList_extract_map_some {first stop : Nat} (hstop : stop ≤ text.size) :
    (text.extract first stop).toList.map some =
      (List.range' first (stop - first)).map (text[·]?) := by
  have hsize : (text.extract first stop).toList.length = stop - first := by
    rw [Array.length_toList, Array.size_extract, Nat.min_eq_left hstop]
  refine List.ext_getElem (by rw [List.length_map, List.length_map, hsize, List.length_range'])
    fun pos h h' => ?_
  rw [List.length_map, hsize] at h
  simp only [List.getElem_map, Array.getElem_toList, Array.getElem_extract, List.getElem_range',
    Nat.one_mul]
  rw [Array.getElem?_eq_getElem (by omega)]

/-- Whether a place lies in a span. -/
def Span.covers (span : Span) (place : Nat) : Bool := span.first ≤ place && place < span.stop

namespace Matcher

/-- The places from one on that lie in none of some spans. -/
def keptFrom (size place : Nat) (spans : List Span) : List Nat :=
  (List.range' place (size - place)).filter fun pos => !spans.any (·.covers pos)

theorem InOrder.le_first {place : Nat} {spans : List Span} (h : InOrder place spans) {span : Span}
    (hspan : span ∈ spans) : place ≤ span.first := by
  induction spans generalizing place with
  | nil => cases hspan
  | cons first rest ih =>
    obtain ⟨hfirst, hstop, hrest⟩ := h
    rcases List.mem_cons.1 hspan with rfl | hspan
    · exact hfirst
    · have hlater := ih hrest hspan
      omega

theorem range'_split {first mid stop : Nat} (hfirst : first ≤ mid) (hstop : mid ≤ stop) :
    List.range' first (stop - first) =
      List.range' first (mid - first) ++ List.range' mid (stop - mid) := by
  have hmid : first + (mid - first) = mid := by omega
  have hlength : mid - first + (stop - mid) = stop - first := by omega
  rw [← hlength, ← List.range'_append_1, hmid]

/-- The places up to a span, and then those behind it. -/
theorem keptFrom_cons {size place : Nat} {span : Span} {rest : List Span}
    (h : InOrder place (span :: rest)) (hsize : span.stop ≤ size) :
    keptFrom size place (span :: rest) =
      List.range' place (span.first - place) ++ keptFrom size span.stop rest := by
  obtain ⟨hfirst, hstop, hrest⟩ := h
  have hbefore : (List.range' place (span.first - place)).filter
      (fun pos => !(span :: rest).any (·.covers pos)) =
        List.range' place (span.first - place) := by
    refine List.filter_eq_self.2 fun pos hpos => ?_
    rw [List.mem_range'_1] at hpos
    rw [Bool.not_eq_true', List.any_eq_false]
    intro other hother hcovers
    simp only [Span.covers, Bool.and_eq_true, decide_eq_true_eq] at hcovers
    rcases List.mem_cons.1 hother with rfl | hother
    · omega
    · have hlater := hrest.le_first hother
      omega
  have hinside : (List.range' span.first (span.stop - span.first)).filter
      (fun pos => !(span :: rest).any (·.covers pos)) = [] := by
    refine List.filter_eq_nil_iff.2 fun pos hpos => ?_
    rw [List.mem_range'_1] at hpos
    have hcovers : span.covers pos = true := by
      simp only [Span.covers, Bool.and_eq_true, decide_eq_true_eq]
      omega
    rw [List.any_cons, hcovers, Bool.true_or]
    decide
  have hbehind : (List.range' span.stop (size - span.stop)).filter
      (fun pos => !(span :: rest).any (·.covers pos)) = keptFrom size span.stop rest := by
    refine List.filter_congr fun pos hpos => ?_
    rw [List.mem_range'_1] at hpos
    have hcovers : span.covers pos = false := by
      simp only [Span.covers, Bool.and_eq_false_iff, decide_eq_false_iff_not]
      omega
    rw [List.any_cons, hcovers, Bool.false_or]
  rw [keptFrom, range'_split hfirst (Nat.le_trans hstop hsize), range'_split hstop hsize,
    List.filter_append, List.filter_append, hbefore, hinside, hbehind, List.nil_append]

theorem cutFrom_map_some {spans : List Span} {place : Nat} (h : InOrder place spans)
    (hsize : ∀ span ∈ spans, span.stop ≤ text.size) :
    (cutFrom text place spans).map some = (keptFrom text.size place spans).map (text[·]?) := by
  induction spans generalizing place with
  | nil =>
    have hall : keptFrom text.size place [] = List.range' place (text.size - place) :=
      List.filter_eq_self.2 fun _ _ => rfl
    rw [hall]
    exact toList_extract_map_some (Nat.le_refl _)
  | cons span rest ih =>
    have hstop := hsize span List.mem_cons_self
    have hrest := ih h.2.2 fun s hs => hsize s (List.mem_cons_of_mem _ hs)
    have hle : span.first ≤ text.size := Nat.le_trans h.2.1 hstop
    rw [keptFrom_cons h hstop, List.map_append, ← hrest, ← toList_extract_map_some hle,
      ← List.map_append]
    rfl

variable {m : Matcher}

theorem tried_lt_of_searchFrom {origin left place count tried : Nat} {s : State}
    (h : m.searchFrom text origin left place count = .found tried s) : tried < place + count := by
  induction count generalizing place left with
  | zero => cases h
  | succ count ih =>
    unfold searchFrom at h
    split at h
    · cases h
      omega
    · have hlater := ih h
      omega
    · cases h

/-- A search stays in the text. -/
theorem pos_le_of_search {place tried : Nat} {s : State}
    (h : m.search text place = .found tried s) : s.pos ≤ text.size := by
  have htried := tried_lt_of_searchFrom h
  have hle := (search_found h).1
  have hinside : Inside text (.init tried place) := by
    refine ⟨?_, fun _ hmark => by cases hmark⟩
    show tried ≤ text.size
    omega
  exact ((leads_of_search h).inside hinside).pos_le

theorem stop_le_of_mem_spansFrom {fuel : Nat} {last : Option Nat} {place : Nat} {span : Span}
    (h : span ∈ m.spansFrom text fuel last place) : span.stop ≤ text.size := by
  induction fuel generalizing last place with
  | zero => cases h
  | succ fuel ih =>
    unfold spansFrom at h
    split at h
    · rename_i tried s hfound
      split at h
      · exact ih h
      · rcases List.mem_cons.1 h with rfl | h
        · exact pos_le_of_search hfound
        · exact ih h
    · cases h

/-- The places of a text that lie in no match that a matcher takes out. -/
def kept (m : Matcher) (text : Array Char) : List Nat := keptFrom text.size 0 (m.spans text)

theorem not_covers_of_mem_kept {place : Nat} (h : place ∈ m.kept text) {span : Span}
    (hspan : span ∈ m.spans text) : span.covers place = false := by
  have hnone := (List.mem_filter.1 h).2
  rw [Bool.not_eq_true', List.any_eq_false] at hnone
  exact Bool.eq_false_iff.2 (hnone span hspan)

theorem picks_removeAll (hm : m.engine = .linear) (value : String) :
    Picks (m.kept value.toList.toArray) value.toList.toArray
      (m.removeAll value).toList.toArray := by
  constructor
  · exact List.Pairwise.filter _ (List.pairwise_lt_range' 1)
  · rw [removeAll, String.toList_ofList, kept]
    exact cutFrom_map_some (inOrder_spansFrom hm _ none 0) fun _ => stop_le_of_mem_spansFrom

/-- The places of a text whose characters are left when some matchers have taken out their matches,
one after the other. -/
def survivors : List Matcher → String → List Nat
  | [], value => List.range value.toList.toArray.size
  | m :: rest, value =>
    (survivors rest (m.removeAll value)).map ((m.kept value.toList.toArray).getD · 0)

theorem picks_survivors {ms : List Matcher} (hms : ∀ m ∈ ms, m.engine = .linear) (value : String) :
    Picks (survivors ms value) value.toList.toArray
      (ms.foldl (fun text m => m.removeAll text) value).toList.toArray := by
  induction ms generalizing value with
  | nil => exact .refl _
  | cons m rest ih =>
    obtain ⟨hm, hrest⟩ := List.forall_mem_cons.1 hms
    exact (picks_removeAll hm value).trans (ih hrest (m.removeAll value))

/-- What a first matcher takes out does not come back. -/
theorem mem_kept_of_mem_survivors {rest : List Matcher}
    (hms : ∀ m' ∈ m :: rest, m'.engine = .linear) {value : String} {place : Nat}
    (h : place ∈ survivors (m :: rest) value) : place ∈ m.kept value.toList.toArray := by
  obtain ⟨hm, hrest⟩ := List.forall_mem_cons.1 hms
  obtain ⟨pos, hpos, rfl⟩ := List.mem_map.1 h
  have hlt := (picks_survivors hrest (m.removeAll value)).lt_size hpos
  exact List.mem_of_getElem? ((picks_removeAll hm value).getElem?_getD hlt 0)

end Matcher

/-! ## Matches -/

/-- Whether every way through a pattern is sure to pass over a character. -/
def Node.consumes : Node → Bool
  | .chars _ => true
  | .seq p q => p.consumes || q.consumes
  | .alt p q => p.consumes && q.consumes
  | .plus _ p | .group _ p | .atomic p => p.consumes
  | .branch condition yes no => (condition.consumes || yes.consumes) && no.consumes
  | .empty | .assertion _ | .star _ _ | .look _ _ _ | .backref _ | .keep | .searchStart
  | .groupSet _ => false

theorem Leads.pos_lt {p : Node} {s t : State} (h : Leads text p s t) (hp : p.consumes = true) :
    s.pos < t.pos := by
  induction h with
  | chars hstep =>
    obtain ⟨_, _, _, rfl⟩ := step?_eq_some hstep
    exact Nat.lt_succ_self _
  | seq hfirst hrest ihp ihq =>
    have hle := hfirst.pos_le
    have hle' := hrest.pos_le
    rcases Bool.or_eq_true_iff.1 hp with hp | hq
    · exact Nat.lt_of_lt_of_le (ihp hp) hle'
    · exact Nat.lt_of_le_of_lt hle (ihq hq)
  | altLeft _ ih => exact ih (Bool.and_eq_true_iff.1 hp).1
  | altRight _ ih => exact ih (Bool.and_eq_true_iff.1 hp).2
  | plusDone _ _ ih => exact ih hp
  | plusRounds _ hpos hrest _ _ => exact Nat.lt_of_lt_of_le hpos hrest.pos_le
  | group _ ih => exact ih hp
  | atomic _ ih => exact ih hp
  | branchYes hfirst hrest ihp ihq =>
    have hle := hfirst.pos_le
    have hle' := hrest.pos_le
    rcases Bool.or_eq_true_iff.1 (Bool.and_eq_true_iff.1 hp).1 with hp | hq
    · exact Nat.lt_of_lt_of_le (ihp hp) hle'
    · exact Nat.lt_of_le_of_lt hle (ihq hq)
  | branchNo _ ih => exact ih (Bool.and_eq_true_iff.1 hp).2
  | empty => cases hp
  | assertion _ => cases hp
  | starDone => cases hp
  | starRound _ _ _ _ _ => cases hp
  | look _ _ _ => cases hp
  | lookFailed => cases hp
  | backref _ => cases hp
  | keep => cases hp
  | searchStart _ => cases hp
  | groupSet _ => cases hp

namespace Matcher

variable {m : Matcher}

/-- The pattern never matches without a character. -/
def Consumes (m : Matcher) : Prop :=
  ∀ (text : Array Char) (place tried : Nat) (s : State),
    m.search text place = .found tried s → tried < s.pos

theorem consumes_of_node (h : m.program.node.consumes = true) : m.Consumes :=
  fun _ _ _ _ hfound => (leads_of_search hfound).pos_lt h

theorem exists_found (hlinear : m.isLinear = true) (left : Nat) {origin place count pos : Nat}
    (hle : place ≤ pos) (hlt : pos < place + count)
    (h : (firstEnd text m.program.node (.init pos origin)).isSome = true) :
    ∃ tried s, m.searchFrom text origin left place count = .found tried s ∧ tried ≤ pos := by
  induction count generalizing left place with
  | zero => omega
  | succ count ih =>
    unfold searchFrom attempt
    rw [if_pos hlinear]
    cases hend : firstEnd text m.program.node (.init place origin) with
    | some s => exact ⟨place, s, rfl, hle⟩
    | none =>
      have hne : place ≠ pos := by
        rintro rfl
        rw [hend] at h
        cases h
      exact ih left (by omega) (by omega)

/-- Every search finds the same if the pattern is regular. -/
theorem isSome_firstEnd_init {p : Node} (hp : p.isRegular = true) (pos origin origin' : Nat) :
    (firstEnd text p (.init pos origin)).isSome = (firstEnd text p (.init pos origin')).isSome := by
  have hways : ways text p (.init pos origin) =
      (ways text p (.init pos origin')).map (State.searchedFrom origin) :=
    ways_searchedFrom (Node.uses_of_isRegular hp) origin (.init pos origin')
  rw [firstEnd_eq_head?_ways hp, firstEnd_eq_head?_ways hp, hways, List.head?_map, Option.isSome_map]

/-- A place at which the pattern matches lies in a match that is taken out. -/
theorem exists_span (hm : m.engine = .linear) (hregular : m.program.node.isRegular = true)
    (hconsumes : m.Consumes) {fuel : Nat} {last : Option Nat} {place pos : Nat}
    (hfuel : text.size < place + fuel) (hle : place ≤ pos)
    (hpos : pos ≤ text.size) (h : (firstEnd text m.program.node (.init pos)).isSome = true) :
    ∃ span ∈ m.spansFrom text fuel last place, span.covers pos = true := by
  have hlinear : m.isLinear = true := by simp [isLinear, hm]
  induction fuel generalizing last place with
  | zero => omega
  | succ fuel ih =>
    have hlt : pos < place + (text.size + 1 - place) := by omega
    have hthere := h
    rw [isSome_firstEnd_init hregular pos pos place] at hthere
    obtain ⟨tried, s, hfound, htried⟩ := exists_found hlinear backtrackLimit hle hlt hthere
    have hsearch : m.search text place = .found tried s := hfound
    obtain ⟨hplace, left, left', hattempt⟩ := search_found hsearch
    have hstart : s.start = tried := start_of_attempt hm hattempt
    have hforward : tried < s.pos := hconsumes text place tried s hsearch
    unfold spansFrom
    rw [hsearch]
    dsimp only
    rw [if_neg (by omega)]
    by_cases hinside : pos < s.pos
    · refine ⟨_, List.mem_cons_self, ?_⟩
      simp only [Span.covers, Bool.and_eq_true, decide_eq_true_eq]
      omega
    · obtain ⟨span, hspan, hcovers⟩ :
          ∃ span ∈ m.spansFrom text fuel (some s.pos) s.pos, span.covers pos = true :=
        ih (by omega) (by omega)
      exact ⟨span, List.mem_cons_of_mem _ hspan, hcovers⟩

theorem inherited_isRegular (features : Feature → Prop) (sets refers : Nat → Prop) :
    Node.Inherited .linear features sets refers fun p => p.isRegular = true where
  empty := rfl
  chars _ := rfl
  assertion _ := rfl
  seq hp hq := Bool.and_eq_true_iff.2 ⟨hp, hq⟩
  alt hp hq := Bool.and_eq_true_iff.2 ⟨hp, hq⟩
  star _ _ hp := hp
  plus _ _ hp := hp
  group _ hp := hp
  look hengine := by cases hengine
  backref hengine := by cases hengine
  atomic hengine := by cases hengine
  keep hengine := by cases hengine
  searchStart hengine := by cases hengine
  groupSet hengine := by cases hengine
  branch hengine := by cases hengine

theorem isRegular_of_linear? {source : String} (h : linear? source = some m) :
    m.program.node.isRegular = true := by
  obtain ⟨program, hprogram, rfl⟩ := Option.map_eq_some_iff.1 h
  obtain ⟨reading, hread, _⟩ := Option.map_eq_some_iff.1 hprogram
  exact inherited_compile hread hprogram (Reader.built_readPattern hread) (inherited_isRegular _ _ _)

end Matcher

/-! ## Seams -/

section

variable {kept : List Nat}

/-- The place behind the character that is left before a place. -/
def lastEnd (kept : List Nat) : Nat → Nat
  | 0 => 0
  | pos + 1 => kept.getD pos 0 + 1

/-- The place of the first character that is left from a place on. -/
def nextStart (size : Nat) (kept : List Nat) (pos : Nat) : Nat := kept.getD pos size

/-- Characters were taken out at a place of what is left. -/
def IsSeam (size : Nat) (kept : List Nat) (pos : Nat) : Prop :=
  lastEnd kept pos < nextStart size kept pos

namespace Picks

theorem nextStart_size (h : Picks kept text left) :
    nextStart text.size kept left.size = text.size := by
  unfold nextStart
  rw [List.getD_eq_getElem?_getD, List.getElem?_eq_none (Nat.le_of_eq h.length_eq),
    Option.getD_none]

theorem nextStart_mem (h : Picks kept text left) {pos : Nat} (hpos : pos < left.size) :
    nextStart text.size kept pos ∈ kept :=
  List.mem_of_getElem? (h.getElem?_getD hpos text.size)

theorem nextStart_lt (h : Picks kept text left) {pos pos' : Nat} (hlt : pos < pos')
    (hpos' : pos' ≤ left.size) : nextStart text.size kept pos < nextStart text.size kept pos' := by
  rcases Nat.eq_or_lt_of_le hpos' with rfl | hpos'
  · rw [h.nextStart_size]
    exact h.lt_size (h.nextStart_mem hlt)
  · exact h.getD_lt_getD hlt hpos' _ _

theorem nextStart_le (h : Picks kept text left) {pos : Nat} (hpos : pos ≤ left.size) :
    nextStart text.size kept pos ≤ text.size := by
  rcases Nat.eq_or_lt_of_le hpos with rfl | hlt
  · exact Nat.le_of_eq h.nextStart_size
  · exact Nat.le_of_lt (h.lt_size (h.nextStart_mem hlt))

/-- At most as many characters are left before a place as stand before it in the text. -/
theorem le_nextStart (h : Picks kept text left) {pos : Nat} (hpos : pos ≤ left.size) :
    pos ≤ nextStart text.size kept pos := by
  induction pos with
  | zero => exact Nat.zero_le _
  | succ pos ih =>
    have hbefore := ih (Nat.le_of_succ_le hpos)
    exact Nat.lt_of_le_of_lt hbefore (h.nextStart_lt (Nat.lt_succ_self pos) hpos)

theorem lastEnd_succ (h : Picks kept text left) {pos : Nat} (hpos : pos < left.size) :
    lastEnd kept (pos + 1) = nextStart text.size kept pos + 1 := by
  have hsame := (h.getElem?_getD hpos 0).symm.trans (h.getElem?_getD hpos text.size)
  exact congrArg (· + 1) (Option.some.inj hsame)

/-- Where nothing was taken out the next character stands behind the last one. -/
theorem nextStart_eq_lastEnd (h : Picks kept text left) {pos : Nat} (hpos : pos ≤ left.size)
    (hseam : ¬ IsSeam text.size kept pos) : nextStart text.size kept pos = lastEnd kept pos := by
  apply Nat.le_antisymm (Nat.le_of_not_lt hseam)
  cases pos with
  | zero => exact Nat.zero_le _
  | succ pos =>
    rw [h.lastEnd_succ hpos]
    exact h.nextStart_lt (Nat.lt_succ_self pos) hpos

/-- Between two seams the characters stand as they do in the text. -/
theorem nextStart_eq_add (h : Picks kept text left) {first pos : Nat} (hfirst : first ≤ pos)
    (hpos : pos ≤ left.size)
    (hseams : ∀ pos', first < pos' → pos' ≤ pos → ¬ IsSeam text.size kept pos') :
    nextStart text.size kept pos = pos + (nextStart text.size kept first - first) := by
  induction hfirst with
  | refl => exact (Nat.add_sub_cancel' (h.le_nextStart hpos)).symm
  | @step pos hfirst ih =>
    have hbefore := ih (Nat.le_of_succ_le hpos) fun pos' hlt hle =>
      hseams pos' hlt (Nat.le_succ_of_le hle)
    have hseam := hseams (pos + 1) (Nat.lt_succ_of_le hfirst) (Nat.le_refl _)
    rw [h.nextStart_eq_lastEnd hpos hseam, h.lastEnd_succ hpos, hbefore]
    omega

/-- A place where nothing was taken out looks as it does in the text. -/
theorem sameAt (h : Picks kept text left) {pos : Nat} (hpos : pos ≤ left.size)
    (hseam : ¬ IsSeam text.size kept pos) :
    SameAt left text pos (nextStart text.size kept pos) := by
  have hend := h.nextStart_eq_lastEnd hpos hseam
  have hle := h.le_nextStart hpos
  refine ⟨⟨?_, ?_⟩, ⟨?_, ?_⟩, ?_, ?_⟩
  · rintro rfl
    exact hend
  · omega
  · rintro rfl
    exact h.nextStart_size
  · intro hsize
    by_contra hne
    have hlt := h.lt_size (h.nextStart_mem (by omega : pos < left.size))
    omega
  · intro hne
    obtain ⟨pos, rfl⟩ := Nat.exists_eq_succ_of_ne_zero hne
    rw [hend, h.lastEnd_succ hpos]
    exact h.getElem? (h.getElem?_getD hpos _)
  · rcases Nat.eq_or_lt_of_le hpos with rfl | hlt
    · rw [h.nextStart_size, Array.getElem?_eq_none (Nat.le_refl _),
        Array.getElem?_eq_none (Nat.le_refl _)]
    · exact h.getElem? (h.getElem?_getD hlt _)

/-- As many characters stand behind a place that is left as are left behind it, or more. -/
theorem nextStart_add_le (h : Picks kept text left) {pos n : Nat} (hend : pos + n = left.size) :
    nextStart text.size kept pos + n ≤ text.size := by
  induction n generalizing pos with
  | zero => exact h.nextStart_le (Nat.le_of_eq hend)
  | succ n ih =>
    have hnext : nextStart text.size kept (pos + 1) + n ≤ text.size := ih (by omega)
    have hlt : nextStart text.size kept pos < nextStart text.size kept (pos + 1) :=
      h.nextStart_lt (Nat.lt_succ_self pos) (by omega)
    omega

/-- Where no character is missing there is no seam. -/
theorem not_isSeam (h : Picks kept text left) (hsize : left.size = text.size) {pos : Nat}
    (hpos : pos ≤ left.size) : ¬ IsSeam text.size kept pos := by
  have hplace : ∀ pos, pos ≤ left.size → nextStart text.size kept pos = pos := by
    intro pos hpos
    have hle := h.le_nextStart hpos
    have hadd := h.nextStart_add_le (Nat.add_sub_cancel' hpos)
    omega
  unfold IsSeam
  rw [hplace pos hpos]
  cases pos with
  | zero => exact Nat.lt_irrefl 0
  | succ pos =>
    rw [h.lastEnd_succ hpos, hplace pos (Nat.le_of_succ_le hpos)]
    exact Nat.lt_irrefl _

/-- Between two seams a pattern reads what it reads in the text. -/
theorem reads (h : Picks kept text left) {p : Node} {first stop : Nat} (hstop : stop ≤ left.size)
    (hinner : ∀ pos, first < pos → pos < stop → ¬ IsSeam text.size kept pos)
    (hall : p.asserts = true → ∀ pos, first ≤ pos → pos ≤ stop → ¬ IsSeam text.size kept pos) :
    Reads left text (nextStart text.size kept first - first) p first stop := by
  constructor
  · intro pos hpos hlt
    have hplace := h.nextStart_eq_add hpos (by omega) fun pos' hfirst hle' =>
      hinner pos' hfirst (by omega)
    rw [← hplace]
    exact h.getElem? (h.getElem?_getD (by omega) _)
  · intro hasserts pos hpos hle'
    have hplace := h.nextStart_eq_add hpos (by omega) fun pos' hfirst hle'' =>
      hall hasserts pos' (by omega) (by omega)
    rw [← hplace]
    exact h.sameAt (by omega) (hall hasserts pos hpos hle')

section

variable {m : Matcher} {source : String} {first : Nat} {s : State}

/-- There is no match between two seams if every match of the text was taken out. -/
theorem not_leads (h : Picks kept text left) (hm : Matcher.linear? source = some m)
    (hconsumes : m.Consumes)
    (hkept : ∀ place ∈ kept, ∀ span ∈ m.spans text, span.covers place = false)
    (hfirst : first ≤ left.size)
    (hinner : ∀ pos, first < pos → pos < s.pos → ¬ IsSeam text.size kept pos)
    (hall : m.program.node.asserts = true →
      ∀ pos, first ≤ pos → pos ≤ s.pos → ¬ IsSeam text.size kept pos) :
    ¬ Leads left m.program.node (.init first) s := by
  intro hleads
  have hregular := Matcher.isRegular_of_linear? hm
  have hend : s.pos ≤ max first left.size := hleads.pos_le_max hregular
  have hreads := h.reads (by omega) hinner hall
  -- The match is found in the text as well, where the first of its characters is left.
  have hplace := h.nextStart_eq_add (Nat.le_refl first) hfirst fun _ hlt hle =>
    absurd hle (Nat.not_le.2 hlt)
  have hsize := h.nextStart_le hfirst
  have hthere := hleads.moved hregular hreads (Nat.le_refl _) (Nat.le_refl _)
  rw [State.shift_init, ← hplace] at hthere
  have ht := hthere.searchedFrom (Node.uses_of_isRegular hregular) (nextStart text.size kept first)
  have hinside : Inside text (.init (nextStart text.size kept first)) :=
    ⟨hsize, fun _ hmark => by cases hmark⟩
  have hmem := ht.mem_ways hregular hinside
  have hsome : (firstEnd text m.program.node
      (.init (nextStart text.size kept first))).isSome = true := by
    rw [firstEnd_eq_head?_ways hregular, List.isSome_head?]
    exact List.ne_nil_of_mem hmem
  obtain ⟨span, hspan, hcovers⟩ : ∃ span ∈ m.spans text,
      span.covers (nextStart text.size kept first) = true :=
    Matcher.exists_span (Matcher.linear?_eq_some hm) hregular hconsumes (by omega) (Nat.zero_le _)
      hsize hsome
  rcases Nat.eq_or_lt_of_le hfirst with rfl | hlt
  · rw [h.nextStart_size] at hcovers
    have hstop := Matcher.stop_le_of_mem_spansFrom hspan
    simp only [Span.covers, Bool.and_eq_true, decide_eq_true_eq] at hcovers
    omega
  · rw [hkept _ (h.nextStart_mem hlt) span hspan] at hcovers
    cases hcovers

/-- A match in what is left of a text touches a seam if every match of the text was taken out.  If
the pattern asks for no conditions on places, the match runs over the seam. -/
theorem exists_seam (h : Picks kept text left) (hm : Matcher.linear? source = some m)
    (hconsumes : m.Consumes)
    (hkept : ∀ place ∈ kept, ∀ span ∈ m.spans text, span.covers place = false)
    (hfirst : first ≤ left.size) (hleads : Leads left m.program.node (.init first) s) :
    ∃ pos, first ≤ pos ∧ pos ≤ s.pos ∧ IsSeam text.size kept pos ∧
      (m.program.node.asserts = false → first < pos ∧ pos < s.pos) := by
  cases hasserts : m.program.node.asserts with
  | true =>
    by_contra hnone
    have hall : ∀ pos, first ≤ pos → pos ≤ s.pos → ¬ IsSeam text.size kept pos :=
      fun pos hle hle' hseam => hnone ⟨pos, hle, hle', hseam, fun hno => by cases hno⟩
    have hinner : ∀ pos, first < pos → pos < s.pos → ¬ IsSeam text.size kept pos :=
      fun pos hlt hlt' => hall pos (Nat.le_of_lt hlt) (Nat.le_of_lt hlt')
    exact h.not_leads hm hconsumes hkept hfirst hinner (fun _ => hall) hleads
  | false =>
    by_contra hnone
    have hinner : ∀ pos, first < pos → pos < s.pos → ¬ IsSeam text.size kept pos :=
      fun pos hlt hlt' hseam =>
        hnone ⟨pos, Nat.le_of_lt hlt, Nat.le_of_lt hlt', hseam, fun _ => ⟨hlt, hlt'⟩⟩
    refine h.not_leads hm hconsumes hkept hfirst hinner ?_ hleads
    rw [hasserts]
    exact fun hno => by cases hno

end

end Picks

end

end Banknote.Pattern
