import Banknote.Proofs.Pattern.Ways

/-!
# What a match depends on

A regular pattern reads the characters that it passes over.  Its assertions read the neighbours of the
places that it comes to besides.  Where two texts agree on these, a match in one of them is a match in
the other one, moved along: `Leads.moved`.

`Reads` says what two texts have to agree on, `SameAt` what is read at one place, and `State.shift` is
where a match has come to in the other text.
-/

namespace Banknote.Pattern

variable {text text' : Array Char}

/-! ## Places -/

/-- A place of a text and a place of another text look alike. -/
structure SameAt (text text' : Array Char) (pos pos' : Nat) : Prop where
  start : pos = 0 ↔ pos' = 0
  stop : pos = text.size ↔ pos' = text'.size
  before : pos ≠ 0 → text[pos - 1]? = text'[pos' - 1]?
  behind : text[pos]? = text'[pos']?

/-- The same conditions hold at places that look alike. -/
theorem SameAt.holds {pos pos' : Nat} (h : SameAt text text' pos pos') (a : Assertion) :
    a.holds text pos = a.holds text' pos' := by
  have hstart : (pos == 0) = (pos' == 0) := by
    rw [Bool.eq_iff_iff, beq_iff_eq, beq_iff_eq]
    exact h.start
  have hstop : (pos == text.size) = (pos' == text'.size) := by
    rw [Bool.eq_iff_iff, beq_iff_eq, beq_iff_eq]
    exact h.stop
  have hword : wordAt text pos = wordAt text' pos' := by
    unfold wordAt
    rw [h.behind]
  have hwordBefore : wordBefore text pos = wordBefore text' pos' := by
    by_cases hpos : pos = 0
    · rw [hpos, h.start.1 hpos]
      rfl
    · have hpos' : pos' ≠ 0 := fun hzero => hpos (h.start.2 hzero)
      unfold wordBefore wordAt
      rw [h.before hpos, bne_iff_ne.2 hpos, bne_iff_ne.2 hpos']
  have hline : (pos == 0 || text[pos - 1]? == some '\n') =
      (pos' == 0 || text'[pos' - 1]? == some '\n') := by
    by_cases hpos : pos = 0
    · rw [hpos, h.start.1 hpos]
      rfl
    · rw [hstart, h.before hpos]
  cases a with
  | textStart => exact hstart
  | textEnd => exact hstop
  | lineStart => exact hline
  | lineEnd => simp only [Assertion.holds, hstop, h.behind]
  | returnStart =>
    simp only [Assertion.holds, h.behind]
    by_cases hpos : pos = 0
    · rw [hpos, h.start.1 hpos]
      rfl
    · rw [hstart, h.before hpos]
  | returnEnd =>
    simp only [Assertion.holds, hstop, h.behind]
    by_cases hpos : pos = 0
    · rw [hpos, h.start.1 hpos]
      rfl
    · rw [hstart, h.before hpos]
  | wordBoundary => simp only [Assertion.holds, hword, hwordBefore]
  | notWordBoundary => simp only [Assertion.holds, hword, hwordBefore]
  | wordStart => simp only [Assertion.holds, hword, hwordBefore]
  | wordEnd => simp only [Assertion.holds, hword, hwordBefore]
  | wordStartHalf => simp only [Assertion.holds, hwordBefore]
  | wordEndHalf => simp only [Assertion.holds, hword]

/-! ## Ways -/

/-- Whether a pattern asks for conditions on places. -/
def Node.asserts : Node → Bool
  | .assertion _ => true
  | .seq p q | .alt p q => p.asserts || q.asserts
  | .star _ p | .plus _ p | .group _ p | .look _ _ p | .atomic p => p.asserts
  | .branch p q r => p.asserts || (q.asserts || r.asserts)
  | .empty | .chars _ | .backref _ | .keep | .searchStart | .groupSet _ => false

/-- What a pattern reads from one place to another one is found in the other text so many places
further on. -/
structure Reads (text text' : Array Char) (shift : Nat) (p : Node) (first stop : Nat) : Prop where
  chars (pos : Nat) (hfirst : first ≤ pos) (hstop : pos < stop) : text[pos]? = text'[pos + shift]?
  places (hp : p.asserts = true) (pos : Nat) (hfirst : first ≤ pos) (hstop : pos ≤ stop) :
    SameAt text text' pos (pos + shift)

/-- A part of a pattern reads no more. -/
theorem Reads.part {shift first stop : Nat} {p q : Node} (h : Reads text text' shift p first stop)
    (hq : q.asserts = true → p.asserts = true) : Reads text text' shift q first stop :=
  ⟨h.chars, fun hasserts => h.places (hq hasserts)⟩

/-- A state in another text, so many places further on, in a search that started where the other one
did. -/
def State.shift (s : State) (n : Nat) : State where
  pos := s.pos + n
  start := s.start + n
  origin := s.origin
  marks := s.marks.map fun mark => (mark.1, ⟨mark.2.first + n, mark.2.stop + n⟩)

theorem State.pos_shift (s : State) (n : Nat) : (s.shift n).pos = s.pos + n := rfl

theorem State.shift_init (place origin n : Nat) :
    (init place origin).shift n = init (place + n) origin := rfl

theorem State.shift_mark (s : State) (index first stop n : Nat) :
    (s.mark index ⟨first, stop⟩).shift n = (s.shift n).mark index ⟨first + n, stop + n⟩ := by
  simp only [shift, mark, List.map_cons, List.filter_map]
  rfl

/-- A match of a regular pattern is one of another text, too, if what the pattern reads is found
there. -/
theorem Leads.moved {p : Node} {s t : State} (h : Leads text p s t) (hp : p.isRegular = true)
    {shift first stop : Nat} (hreads : Reads text text' shift p first stop) (hfirst : first ≤ s.pos)
    (hstop : t.pos ≤ stop) : Leads text' p (s.shift shift) (t.shift shift) := by
  have hleft {p q : Node} (hp : p.asserts = true) : (p.asserts || q.asserts) = true := by
    rw [hp, Bool.true_or]
  have hright {p q : Node} (hq : q.asserts = true) : (p.asserts || q.asserts) = true := by
    rw [hq, Bool.or_true]
  have hforward {s t : State} (hlt : s.pos < t.pos) :
      (s.shift shift).pos < (t.shift shift).pos := Nat.add_lt_add_right hlt shift
  have hstays {s t : State} (hlt : ¬ s.pos < t.pos) :
      ¬ (s.shift shift).pos < (t.shift shift).pos := fun h => hlt (Nat.lt_of_add_lt_add_right h)
  -- By induction on the way: no step of it leads backwards, so each stays in the part that is read.
  induction h with
  | empty => exact .empty
  | @chars set s t hstep =>
    obtain ⟨c, hc, hset, rfl⟩ := step?_eq_some hstep
    have hthere : text'[s.pos + shift]? = some c := by
      rw [← hreads.chars s.pos hfirst hstop, hc]
    have hmoved : ({ s with pos := s.pos + 1 } : State).shift shift =
        { s.shift shift with pos := s.pos + shift + 1 } := by
      rw [State.shift, State.shift, Nat.add_right_comm]
    rw [hmoved]
    refine .chars ?_
    unfold State.step? State.shift
    rw [hthere]
    exact if_pos hset
  | @assertion a s hholds =>
    have hsame := hreads.places rfl s.pos hfirst hstop
    refine .assertion ?_
    rw [← hholds, hsame.holds a]
    rfl
  | seq hway hrest ihp ihq =>
    obtain ⟨hp, hq⟩ := Bool.and_eq_true_iff.1 hp
    have hle := hrest.pos_le
    exact .seq (ihp hp (hreads.part hleft) hfirst (by omega))
      (ihq hq (hreads.part hright) (Nat.le_trans hfirst hway.pos_le) hstop)
  | altLeft _ ih =>
    exact .altLeft (ih (Bool.and_eq_true_iff.1 hp).1 (hreads.part hleft) hfirst hstop)
  | altRight _ ih =>
    exact .altRight (ih (Bool.and_eq_true_iff.1 hp).2 (hreads.part hright) hfirst hstop)
  | starDone => exact .starDone
  | starRound hway hpos hrest ihp ihrest =>
    have hle := hrest.pos_le
    exact .starRound (ihp hp (hreads.part id) hfirst (by omega))
      (hforward hpos) (ihrest hp hreads (Nat.le_trans hfirst hway.pos_le) hstop)
  | plusDone _ hpos ih =>
    exact .plusDone (ih hp (hreads.part id) hfirst hstop) (hstays hpos)
  | plusRounds hway hpos hrest ihp ihrest =>
    have hle := hrest.pos_le
    exact .plusRounds (ihp hp (hreads.part id) hfirst (by omega)) (hforward hpos)
      (ihrest hp (hreads.part id) (Nat.le_trans hfirst hway.pos_le) hstop)
  | group _ ih =>
    rw [State.shift_mark]
    exact .group (ih hp (hreads.part id) hfirst hstop)
  | look _ _ _ => cases hp
  | lookFailed => cases hp
  | backref _ => cases hp
  | atomic _ _ => cases hp
  | keep => cases hp
  | searchStart _ => cases hp
  | groupSet _ => cases hp
  | branchYes _ _ _ _ => cases hp
  | branchNo _ _ => cases hp

end Banknote.Pattern
