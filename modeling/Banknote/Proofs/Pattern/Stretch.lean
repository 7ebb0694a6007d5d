import Banknote.Proofs.Pattern.EveryWay
import Banknote.Proofs.Pattern.Seams
import Banknote.Proofs.Pattern.Trials

/-!
# Stretches that two texts have in common

A match that reads only a stretch which two texts have in common is a match in both.

* Stretches.  `InStretch` says what belongs to a stretch, and `agree_of_common` that the texts agree
  there.  The start and the end of the text belong to it only if it comes to the same end of both.
* Matches.  `isMatch_of_mem_ways`: a pattern matches a text if there is some way to match it,
  whether the engine prefers that way or not.

`isMatch_of_trial` puts these together.
-/

namespace Banknote.Pattern

/-! ## Stretches -/

/-- What belongs to a stretch from one place to another one, where `atStart` and `atEnd` tell whether
the text starts and ends there. -/
def InStretch (first stop : Nat) (atStart atEnd : Prop) : Nat → Prop
  | 0 => atStart
  | place + 1 => first ≤ place ∧ (place < stop ∨ atEnd)

section

variable {before before' common behind behind' : List Char}

theorem getElem?_common {pos : Nat} (hbefore : before.length ≤ pos)
    (hbehind : pos < before.length + common.length) :
    (before ++ common ++ behind).toArray[pos]? = common[pos - before.length]? := by
  rw [List.getElem?_toArray, List.getElem?_append_left (by rw [List.length_append]; exact hbehind),
    List.getElem?_append_right hbefore]

theorem size_common :
    (before ++ common ++ behind).toArray.size =
      before.length + common.length + behind.length := by
  rw [List.size_toArray, List.length_append, List.length_append]

/-- Two texts agree on a stretch that they have in common. -/
theorem agree_of_common {atStart atEnd : Prop} (hle : before.length ≤ before'.length)
    (hstart : atStart → before = [] ∧ before' = []) (hend : atEnd → behind = [] ∧ behind' = []) :
    Agree (before ++ common ++ behind).toArray (before' ++ common ++ behind').toArray
      (before'.length - before.length)
      (InStretch before.length (before.length + common.length) atStart atEnd) := by
  constructor
  · intro hread
    rw [(hstart hread).1, (hstart hread).2]
    rfl
  · rintro pos ⟨hfirst, hread⟩
    by_cases hlt : pos < before.length + common.length
    · have hplace : pos + (before'.length - before.length) - before'.length =
          pos - before.length := by omega
      rw [getElem?_common hfirst hlt, getElem?_common (by omega) (by omega), hplace]
    · obtain ⟨rfl, rfl⟩ := hend (hread.resolve_left hlt)
      rw [Array.getElem?_eq_none, Array.getElem?_eq_none]
      · rw [size_common, List.length_nil]
        omega
      · rw [size_common, List.length_nil]
        omega
  · rintro pos ⟨hfirst, hread⟩
    rw [size_common, size_common]
    rcases hread with hlt | hread
    · omega
    · obtain ⟨rfl, rfl⟩ := hend hread
      simp only [List.length_nil]
      omega

end

/-! ## Matches -/

namespace Matcher

variable {m : Matcher} {source : String} {reading : Reader.Reading}

theorem isRegular_of_isLinear (hread : Reader.readPattern m.engine source.toList = some reading)
    (hprogram : Program.compile? m.engine source.toList = some m.program)
    (hlinear : m.isLinear = true) : m.program.node.isRegular = true := by
  rcases Bool.or_eq_true_iff.1 hlinear with hengine | hplain
  · rw [beq_iff_eq.1 hengine] at hread hprogram
    exact inherited_compile hread hprogram (Reader.built_readPattern hread)
      (inherited_isRegular _ _ _)
  · exact Node.isRegular_of_isPlain hplain

/-- A pattern matches a text if there is some way to match it, unless the search gives up. -/
theorem isMatch_of_mem_ways (hread : Reader.readPattern m.engine source.toList = some reading)
    (hprogram : Program.compile? m.engine source.toList = some m.program) {text : String}
    (hlimit : m.isLinear = true ∨ m.search text.toList.toArray 0 ≠ .gaveUp) {place : Nat}
    {t : State} (ht : t ∈ ways text.toList.toArray (reading.everyWay m.engine) (.init place 0))
    (hplace : place ≤ text.length) : m.isMatch text = true := by
  have hsize : text.toList.toArray.size = text.length := by
    rw [List.size_toArray, String.length_toList]
  obtain ⟨s, hs⟩ := (exists_preferred_iff hread hprogram).2 ⟨t, ht⟩
  suffices hfound : ∃ tried s, m.search text.toList.toArray 0 = .found tried s by
    obtain ⟨tried, s, hfound⟩ := hfound
    rw [isMatch, hfound]
    rfl
  -- A linear search always finds what is there; the other one may give up before.
  by_cases hlinear : m.isLinear = true
  · have hregular := isRegular_of_isLinear hread hprogram hlinear
    have hend : (firstEnd text.toList.toArray m.program.node (.init place 0)).isSome = true := by
      rw [firstEnd_eq_head?_ways hregular]
      exact Option.isSome_iff_exists.2 ⟨s, hs⟩
    obtain ⟨tried, s', hfound, _⟩ := exists_found hlinear backtrackLimit (Nat.zero_le place)
      (by omega : place < 0 + (text.toList.toArray.size + 1 - 0)) hend
    exact ⟨tried, s', hfound⟩
  · have hengine : m.engine = .backtracking := by
      cases hengine : m.engine with
      | linear => simp [isLinear, hengine] at hlinear
      | backtracking => rfl
    have hsurveyed : Surveyed m text.toList.toArray 0 0 _ (m.search text.toList.toArray 0) :=
      surveyed_search hengine (Nat.zero_le _)
    have hgaveUp := hlimit.resolve_left hlinear
    generalize m.search text.toList.toArray 0 = landing at hsurveyed hgaveUp
    cases hsurveyed with
    | @found tried s' _ _ _ _ => exact ⟨tried, s', rfl⟩
    | nothing hnone =>
      rw [hnone place (Nat.zero_le _) (by omega)] at hs
      cases hs
    | gaveUp => exact absurd rfl hgaveUp

/-- A pattern matches a text if in a text that has in common with it what is read there is a way to
match it. -/
theorem isMatch_of_trial (hread : Reader.readPattern m.engine source.toList = some reading)
    (hprogram : Program.compile? m.engine source.toList = some m.program) {text : Array Char}
    {text' : String} (hlimit : m.isLinear = true ∨ m.search text'.toList.toArray 0 ≠ .gaveUp)
    {place shift : Nat} {W : Nat → Prop} (hagree : Agree text text'.toList.toArray shift W)
    {x : Trial} (hx : x ∈ trials text (reading.everyWay m.engine) (.init place 0))
    (hwithin : x.Within W) (hend : x.stop?.isSome = true)
    (hplace : place ≤ text.size) (hplace' : place + shift ≤ text'.length) :
    m.isMatch text' = true := by
  have hinside : Inside text (.init place 0) := ⟨hplace, fun _ hmark => by cases hmark⟩
  have hinside' : Inside text'.toList.toArray (.init (place + shift) 0) := by
    refine ⟨?_, fun _ hmark => by cases hmark⟩
    rw [List.size_toArray, String.length_toList]
    exact hplace'
  obtain ⟨t, ht⟩ := exists_mem_ways_of_trial hagree hinside hinside' hx hwithin hend
  exact isMatch_of_mem_ways hread hprogram hlimit ht hplace'

end Matcher

end Banknote.Pattern
