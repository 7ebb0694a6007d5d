import Banknote.Proofs.Pattern.Leads

/-!
# Taking matches out of a text

The spans of a linear matcher stand in order in the text and do not overlap, so `removeAll` leaves
the other characters in their order and adds none.

A linear match starts where it was tried and no way to match leads backwards.  Neither is known of a
match whose start was moved, so all of this is about the linear engine.
-/

namespace Banknote.Pattern

variable {text : Array Char}

theorem toList_extract (i j : Nat) :
    (text.extract i j).toList = (text.toList.drop i).take (j - i) := by
  rw [Array.toList_extract, List.extract_eq_take_drop]

namespace Matcher

variable {m : Matcher}

theorem linear?_eq_some {source : String} (h : linear? source = some m) : m.engine = .linear := by
  obtain ⟨program, _, rfl⟩ := Option.map_eq_some_iff.1 h
  rfl

/-- Spans from a place on, each of which ends before the next one starts. -/
def InOrder (place : Nat) : List Span → Prop
  | [] => True
  | span :: rest => place ≤ span.first ∧ span.first ≤ span.stop ∧ InOrder span.stop rest

theorem InOrder.of_le {place place' : Nat} {spans : List Span} (h : InOrder place' spans)
    (hle : place ≤ place') : InOrder place spans := by
  cases spans with
  | nil => exact h
  | cons span rest => exact ⟨Nat.le_trans hle h.1, h.2⟩

/-- What a linear search finds starts where the search starts, or later, and does not end before it
starts. -/
theorem span_of_search (hm : m.engine = .linear) {place tried : Nat} {s : State}
    (h : m.search text place = .found tried s) : place ≤ s.start ∧ s.start ≤ s.pos := by
  obtain ⟨hle, left, left', hattempt⟩ := search_found h
  have hstart : s.start = tried := start_of_attempt hm hattempt
  have hpos : tried ≤ s.pos := (leads_of_attempt hattempt).pos_le
  rw [hstart]
  exact ⟨hle, hpos⟩

theorem inOrder_spansFrom (hm : m.engine = .linear) (fuel : Nat) (last : Option Nat)
    (place : Nat) : InOrder place (m.spansFrom text fuel last place) := by
  induction fuel generalizing last place with
  | zero => trivial
  | succ fuel ih =>
    unfold spansFrom
    split
    · rename_i tried s hfound
      have hspan := span_of_search hm hfound
      split
      · have hplace : place ≤ s.pos + 1 := by omega
        exact (ih none (s.pos + 1)).of_le hplace
      · exact ⟨hspan.1, hspan.2, ih (some s.pos) s.pos⟩
    · trivial

/-- What is left without some spans stands in the text in the same order. -/
theorem cutFrom_sublist {spans : List Span} {place : Nat} (h : InOrder place spans) :
    (cutFrom text place spans).Sublist (text.toList.drop place) := by
  induction spans generalizing place with
  | nil =>
    unfold cutFrom
    rw [toList_extract]
    exact List.take_sublist _ _
  | cons span rest ih =>
    obtain ⟨hfirst, hstop, hrest⟩ := h
    have hsplit : text.toList.drop place =
        (text.extract place span.first).toList ++ text.toList.drop span.first := by
      have hdrop := List.take_append_drop (span.first - place) (text.toList.drop place)
      rw [List.drop_drop, Nat.add_sub_cancel' hfirst] at hdrop
      rw [toList_extract, hdrop]
    have hskip : (text.toList.drop span.stop).Sublist (text.toList.drop span.first) :=
      List.drop_sublist_drop_left _ hstop
    unfold cutFrom
    rw [hsplit]
    exact ((ih hrest).trans hskip).append_left _

/-- A linear matcher only takes characters away. -/
theorem removeAll_sublist (hm : m.engine = .linear) (value : String) :
    (m.removeAll value).toList.Sublist value.toList := by
  unfold removeAll
  rw [String.toList_ofList]
  exact cutFrom_sublist (inOrder_spansFrom hm _ none 0)

end Matcher

end Banknote.Pattern
