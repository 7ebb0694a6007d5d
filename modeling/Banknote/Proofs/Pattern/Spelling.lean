import Banknote.Proofs.Pattern.Leads
import Mathlib.Data.List.Forall2

/-!
# What the groups of a pattern can hold

A group of a match holds what some way to match its body passes over.  If the body has finitely many
spellings, that is sequences of character sets, the text of the group follows one of them.

`Matcher.group_spelled` says so of every group of the match that is taken, whichever engine found it
and in whichever direction.  Nothing is said about the whole match.
-/

namespace Banknote.Pattern

variable {text : Array Char}

/-! ## Groups -/

/-- The groups of a pattern: the number and the body of each. -/
def Node.bodies : Node → List (Nat × Node)
  | .seq p q | .alt p q => p.bodies ++ q.bodies
  | .star _ p | .plus _ p | .look _ _ p | .atomic p => p.bodies
  | .group index p => (index, p) :: p.bodies
  | .branch p q r => p.bodies ++ (q.bodies ++ r.bodies)
  | .empty | .chars _ | .assertion _ | .backref _ | .keep | .searchStart | .groupSet _ => []

/-- A piece of the text that some way to match one of the groups passes over. -/
def Captured (text : Array Char) (bodies : List (Nat × Node)) (index : Nat) (span : Span) : Prop :=
  ∃ body, (index, body) ∈ bodies ∧
    ∃ s t, Leads text body s t ∧ span = ⟨s.pos, t.pos⟩

theorem Captured.mono {bodies bodies' : List (Nat × Node)} (hsub : bodies ⊆ bodies') {index : Nat}
    {span : Span} (h : Captured text bodies index span) : Captured text bodies' index span := by
  obtain ⟨body, hbody, hleads⟩ := h
  exact ⟨body, hsub hbody, hleads⟩

theorem mem_marks_mark {s : State} {index index' : Nat} {span span' : Span}
    (h : (index', span') ∈ (s.mark index span).marks) :
    (index' = index ∧ span' = span) ∨ (index', span') ∈ s.marks := by
  unfold State.mark at h
  rcases List.mem_cons.1 h with heq | hmem
  · cases heq
    exact .inl ⟨rfl, rfl⟩
  · exact .inr (List.mem_of_mem_filter hmem)

/-- Every mark that matching leaves was there before or was set by a group of the pattern. -/
theorem Leads.captured {p : Node} {s t : State} (h : Leads text p s t) {index : Nat} {span : Span}
    (hmark : (index, span) ∈ t.marks) :
    (index, span) ∈ s.marks ∨ Captured text p.bodies index span := by
  induction h with
  | empty => exact .inl hmark
  | chars hstep =>
    obtain ⟨_, _, _, rfl⟩ := step?_eq_some hstep
    exact .inl hmark
  | assertion _ => exact .inl hmark
  | seq _ _ ihp ihq =>
    rcases ihq hmark with hmark | hq
    · rcases ihp hmark with hmark | hp
      · exact .inl hmark
      · exact .inr (hp.mono (List.subset_append_left _ _))
    · exact .inr (hq.mono (List.subset_append_right _ _))
  | altLeft _ ih => exact (ih hmark).imp_right (Captured.mono (List.subset_append_left _ _))
  | altRight _ ih => exact (ih hmark).imp_right (Captured.mono (List.subset_append_right _ _))
  | starDone => exact .inl hmark
  | starRound _ _ _ ihp ihrest =>
    rcases ihrest hmark with hmark | hrest
    · exact ihp hmark
    · exact .inr hrest
  | plusDone _ _ ih => exact ih hmark
  | plusRounds _ _ _ ihp ihrest =>
    rcases ihrest hmark with hmark | hrest
    · exact ihp hmark
    · exact .inr hrest
  | @group index' p s t hp ih =>
    rcases mem_marks_mark hmark with ⟨rfl, rfl⟩ | hmark
    · exact .inr ⟨p, List.mem_cons_self, s, t, hp, rfl⟩
    · exact (ih hmark).imp_right (Captured.mono (List.subset_cons_self _ _))
  | look _ _ ih => exact ih hmark
  | lookFailed => exact .inl hmark
  | backref hrepeat =>
    obtain ⟨_, rfl⟩ := repeat?_eq_some hrepeat
    exact .inl hmark
  | atomic _ ih => exact ih hmark
  | keep => exact .inl hmark
  | searchStart _ => exact .inl hmark
  | groupSet _ => exact .inl hmark
  | @branchYes p q r _ _ _ _ _ ihp ihq =>
    have hyes : q.bodies ⊆ p.bodies ++ (q.bodies ++ r.bodies) :=
      List.subset_append_of_subset_right _ (List.subset_append_left _ _)
    rcases ihq hmark with hmark | hq
    · exact (ihp hmark).imp_right (Captured.mono (List.subset_append_left _ _))
    · exact .inr (hq.mono hyes)
  | @branchNo p q r _ _ _ ih =>
    have hno : r.bodies ⊆ p.bodies ++ (q.bodies ++ r.bodies) :=
      List.subset_append_of_subset_right _ (List.subset_append_right _ _)
    exact (ih hmark).imp_right (Captured.mono hno)

/-! ## Spellings -/

/-- The text has one character of each of the sets, in order. -/
abbrev Spelled (sets : List CharSet) (text : List Char) : Prop :=
  List.Forall₂ (fun set c => set.contains c = true) sets text

/-- The sequences of sets that make up the matches, if there are finitely many for certain. -/
def Node.spellings? : Node → Option (List (List CharSet))
  | .empty | .assertion _ => some [[]]
  | .chars set => some [[set]]
  | .seq p q =>
    match p.spellings?, q.spellings? with
    | some vs, some ws => some (vs.flatMap fun v => ws.map (v ++ ·))
    | _, _ => none
  | .alt p q =>
    match p.spellings?, q.spellings? with
    | some vs, some ws => some (vs ++ ws)
    | _, _ => none
  | .group _ p | .atomic p => p.spellings?
  | .star _ _ | .plus _ _ | .look _ _ _ | .backref _ | .keep | .searchStart | .groupSet _
  | .branch _ _ _ => none

theorem extract_self (pos : Nat) : (text.extract pos pos).toList = [] := by
  simp

theorem extract_append {i j k : Nat} (hij : i ≤ j) (hjk : j ≤ k) :
    (text.extract i k).toList = (text.extract i j).toList ++ (text.extract j k).toList := by
  rw [← Array.toList_append, Array.extract_append_extract, Nat.min_eq_left hij,
    Nat.max_eq_right hjk]

theorem extract_one {pos : Nat} {c : Char} (h : text[pos]? = some c) :
    (text.extract pos (pos + 1)).toList = [c] := by
  obtain ⟨hpos, hc⟩ := Array.getElem?_eq_some_iff.1 h
  rw [Array.extract_succ_right (Nat.lt_succ_self pos) hpos, Array.toList_push, extract_self, hc]
  rfl

/-- What matching passes over follows one of the spellings of the pattern. -/
theorem Leads.spelled {p : Node} {s t : State} (h : Leads text p s t) {ws : List (List CharSet)}
    (hws : p.spellings? = some ws) : ∃ w ∈ ws, Spelled w (text.extract s.pos t.pos).toList := by
  have hempty : ∀ s : State, Spelled [] (text.extract s.pos s.pos).toList := by
    intro s
    rw [extract_self]
    exact .nil
  induction h generalizing ws with
  | @empty s =>
    cases hws
    exact ⟨[], List.mem_singleton.2 rfl, hempty s⟩
  | @chars set s t hstep =>
    cases hws
    obtain ⟨c, hc, hset, rfl⟩ := step?_eq_some hstep
    refine ⟨[set], List.mem_singleton.2 rfl, ?_⟩
    rw [extract_one hc]
    exact .cons hset .nil
  | @assertion a s _ =>
    cases hws
    exact ⟨[], List.mem_singleton.2 rfl, hempty s⟩
  | seq hp hq ihp ihq =>
    unfold Node.spellings? at hws
    split at hws
    · rename_i vs ws' hvs hws'
      cases hws
      obtain ⟨v, hv, hspelled⟩ := ihp hvs
      obtain ⟨w, hw, hspelled'⟩ := ihq hws'
      refine ⟨v ++ w, List.mem_flatMap.2 ⟨v, hv, List.mem_map_of_mem hw⟩, ?_⟩
      rw [extract_append hp.pos_le hq.pos_le]
      exact List.rel_append hspelled hspelled'
    · cases hws
  | altLeft _ ih =>
    unfold Node.spellings? at hws
    split at hws
    · rename_i hvs _
      cases hws
      obtain ⟨v, hv, hspelled⟩ := ih hvs
      exact ⟨v, List.mem_append_left _ hv, hspelled⟩
    · cases hws
  | altRight _ ih =>
    unfold Node.spellings? at hws
    split at hws
    · rename_i hws'
      cases hws
      obtain ⟨w, hw, hspelled⟩ := ih hws'
      exact ⟨w, List.mem_append_right _ hw, hspelled⟩
    · cases hws
  | group _ ih => exact ih hws
  | atomic _ ih => exact ih hws
  | starDone | starRound | plusDone | plusRounds | look | lookFailed | backref | keep | searchStart
  | groupSet | branchYes | branchNo => cases hws

namespace Matcher

variable {m : Matcher}

theorem groupText_of_ne_zero (text : Array Char) (s : State) {index : Nat} (hindex : index ≠ 0) :
    groupText text s index = "" ∨ ∃ span, (index, span) ∈ s.marks ∧
      groupText text s index = String.ofList (text.extract span.first span.stop).toList := by
  unfold groupText
  rw [if_neg hindex]
  cases hspan : s.marks.lookup index with
  | none => exact .inl rfl
  | some span =>
    obtain ⟨before, after, hmarks, _⟩ := List.lookup_eq_some_iff.1 hspan
    refine .inr ⟨span, ?_, rfl⟩
    rw [hmarks]
    exact List.mem_append_right _ List.mem_cons_self

/-- A numbered group of the match that is taken is empty or follows one of the spellings of its
body. -/
theorem group_spelled {allowed : List (List CharSet)}
    (hbodies : ∀ e ∈ m.program.node.bodies, ∃ ws, e.2.spellings? = some ws ∧ ws ⊆ allowed)
    {s : State} (hs : m.match? text = some s) {index : Nat} (hindex : index ≠ 0) :
    groupText text s index = "" ∨ ∃ w ∈ allowed, Spelled w (groupText text s index).toList := by
  rcases groupText_of_ne_zero text s hindex with hempty | ⟨span, hspan, htext⟩
  · exact .inl hempty
  · obtain ⟨_, _, hleads⟩ := leads_of_match? hs
    rcases hleads.captured hspan with hmark | ⟨body, hbody, u, v, hbetween, rfl⟩
    · cases hmark
    · obtain ⟨ws, hws, hallowed⟩ := hbodies _ hbody
      obtain ⟨w, hw, hspelled⟩ := hbetween.spelled hws
      refine .inr ⟨w, hallowed hw, ?_⟩
      rw [htext, String.toList_ofList]
      exact hspelled

end Matcher

end Banknote.Pattern
