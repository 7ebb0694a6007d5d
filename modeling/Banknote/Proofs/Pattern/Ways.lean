import Banknote.Proofs.Pattern.Leads
import Mathlib.Data.List.Basic

/-!
# The ways to match a pattern, in the order of preference

`ways text p s` lists where the ways to match the pattern `p` lead from the state `s`, the preferred
way first.  Nothing is said about how a way is found: there is no record of places, no limit and
nothing that has to follow.  The engines are measured by this list.

* Rounds.  `starWays` are the ways through the rounds of a star.  Each round consumes something, so
  more fuel than there are characters left changes nothing (`starWays_of_le`).
* Places.  `Leads.pos_le_max`: no way through a regular pattern leads past the end of the text.
  `Leads.inside`: no way through any pattern does that starts in the text.
* Stars.  `ways_star` is the equation of a star without fuel.
* Regular patterns.  `Leads.mem_ways`: no way through them is missing from the list.
-/

namespace Banknote.Pattern

/-! ## Ways -/

/-- The ways through the rounds of a star, given the ways through one round.  `fuel` bounds the
number of rounds. -/
def starWays (greedy : Bool) (body : State → List State) : Nat → State → List State
  | 0, s => [s]
  | fuel + 1, s =>
    let more := ((body s).filter (s.pos < ·.pos)).flatMap (starWays greedy body fuel)
    if greedy then more ++ [s] else s :: more

/-- The ways that start some characters before the place. -/
def waysBack (back : Nat) (body : State → List State) (s : State) : List State :=
  if s.pos < back then [] else body { s with pos := s.pos - back }

/-- The states to which the ways to match a pattern lead from a state, the preferred way first. -/
def ways (text : Array Char) : Node → State → List State
  | .empty, s => [s]
  | .chars set, s => (s.step? text set).toList
  | .assertion a, s => if a.holds text s.pos then [s] else []
  | .seq p q, s => (ways text p s).flatMap (ways text q)
  | .alt p q, s => ways text p s ++ ways text q s
  | .star greedy p, s => starWays greedy (ways text p) (text.size - s.pos) s
  | .plus greedy p, s =>
    (ways text p s).flatMap fun t =>
      if s.pos < t.pos then starWays greedy (ways text p) (text.size - t.pos) t else [t]
  | .group index p, s => (ways text p s).map fun t => t.mark index ⟨s.pos, t.pos⟩
  | .look negative back p, s =>
    let seen := waysBack back (ways text p) s
    if negative then if seen.isEmpty then [s] else []
    else seen.map fun t => { t with pos := s.pos }
  | .backref index, s => (s.repeat? text index).toList
  | .atomic p, s => (ways text p s).head?.toList
  | .keep, s => [{ s with start := s.pos }]
  | .searchStart, s => if s.pos ≤ s.origin then [s] else []
  | .groupSet index, s => if s.hasMatched index then [s] else []
  | .branch condition yes no, s =>
    match (ways text condition s).head? with
    | some t => ways text yes t
    | none => ways text no s

variable {text : Array Char}

section

variable {greedy : Bool} {p : Node} {body : State → List State}

theorem mem_starWays_succ {fuel : Nat} {s t : State} :
    t ∈ starWays greedy body (fuel + 1) s ↔
      t = s ∨ ∃ u ∈ body s, s.pos < u.pos ∧ t ∈ starWays greedy body fuel u := by
  cases greedy <;> simp [starWays, and_assoc, or_comm]

theorem leads_of_mem_starWays (hbody : ∀ s t, t ∈ body s → Leads text p s t) {fuel : Nat}
    {s t : State} (h : t ∈ starWays greedy body fuel s) : Leads text (.star greedy p) s t := by
  induction fuel generalizing s with
  | zero =>
    obtain rfl := List.mem_singleton.1 h
    exact .starDone
  | succ fuel ih =>
    rcases mem_starWays_succ.1 h with rfl | ⟨u, hu, hpos, hrest⟩
    · exact .starDone
    · exact .starRound (hbody s u hu) hpos (ih hrest)

end

/-- Some way leads wherever a way is listed to lead. -/
theorem leads_of_mem_ways {p : Node} {s t : State} (h : t ∈ ways text p s) : Leads text p s t := by
  induction p generalizing s t with
  | empty =>
    obtain rfl := List.mem_singleton.1 h
    exact .empty
  | chars set => exact .chars (Option.mem_toList.1 h)
  | assertion a =>
    unfold ways at h
    split at h
    · rename_i hholds
      obtain rfl := List.mem_singleton.1 h
      exact .assertion hholds
    · cases h
  | seq p q ihp ihq =>
    obtain ⟨u, hu, ht⟩ := List.mem_flatMap.1 h
    exact .seq (ihp hu) (ihq ht)
  | alt p q ihp ihq =>
    rcases List.mem_append.1 h with h | h
    · exact .altLeft (ihp h)
    · exact .altRight (ihq h)
  | star greedy p ih => exact leads_of_mem_starWays (fun _ _ => ih) h
  | plus greedy p ih =>
    obtain ⟨u, hu, ht⟩ := List.mem_flatMap.1 h
    split at ht
    · rename_i hpos
      exact .plusRounds (ih hu) hpos (leads_of_mem_starWays (fun _ _ => ih) ht)
    · rename_i hpos
      obtain rfl := List.mem_singleton.1 ht
      exact .plusDone (ih hu) hpos
  | group index p ih =>
    obtain ⟨u, hu, rfl⟩ := List.mem_map.1 h
    exact .group (ih hu)
  | look negative back p ih =>
    rw [ways] at h
    cases negative with
    | false =>
      obtain ⟨u, hu, rfl⟩ := List.mem_map.1 h
      unfold waysBack at hu
      split at hu
      · cases hu
      · rename_i hback
        exact .look (Nat.le_of_not_lt hback) (ih hu)
    | true =>
      rw [if_pos rfl] at h
      obtain rfl := List.mem_singleton.1 (List.mem_ite_nil_right.1 h).2
      exact .lookFailed
  | backref index => exact .backref (Option.mem_toList.1 h)
  | atomic p ih => exact .atomic (ih (List.mem_of_mem_head? (Option.mem_toList.1 h)))
  | keep =>
    obtain rfl := List.mem_singleton.1 h
    exact .keep
  | searchStart =>
    unfold ways at h
    split at h
    · rename_i horigin
      obtain rfl := List.mem_singleton.1 h
      exact .searchStart horigin
    · cases h
  | groupSet index =>
    unfold ways at h
    split at h
    · rename_i hset
      obtain rfl := List.mem_singleton.1 h
      exact .groupSet hset
    · cases h
  | branch condition yes no ihc ihy ihn =>
    unfold ways at h
    split at h
    · rename_i u hu
      exact .branchYes (ihc (List.mem_of_mem_head? hu)) (ihy h)
    · exact .branchNo (ihn h)

/-! ## Places -/

/-- Whether a node does without look-around, references, atomic groups, conditions, moved starts and
the start of the search, so that it matters where it is matched and not what was matched before. -/
def Node.isRegular : Node → Bool
  | .empty | .chars _ | .assertion _ => true
  | .seq p q | .alt p q => p.isRegular && q.isRegular
  | .star _ p | .plus _ p | .group _ p => p.isRegular
  | .look _ _ _ | .backref _ | .atomic _ | .keep | .searchStart | .groupSet _ | .branch _ _ _ => false

theorem Node.isRegular_of_isPlain {p : Node} (hp : p.isPlain = true) : p.isRegular = true := by
  induction p with
  | empty => rfl
  | chars set => rfl
  | assertion a => rfl
  | seq p q ihp ihq =>
    obtain ⟨hp, hq⟩ := Bool.and_eq_true_iff.1 hp
    exact Bool.and_eq_true_iff.2 ⟨ihp hp, ihq hq⟩
  | alt p q ihp ihq =>
    obtain ⟨hp, hq⟩ := Bool.and_eq_true_iff.1 hp
    exact Bool.and_eq_true_iff.2 ⟨ihp hp, ihq hq⟩
  | star greedy p ih => exact ih hp
  | plus greedy p ih => exact ih hp
  | group index p ih => exact ih hp
  | look _ _ _ => cases hp
  | backref _ => cases hp
  | atomic _ => cases hp
  | keep => cases hp
  | searchStart => cases hp
  | groupSet _ => cases hp
  | branch _ _ _ => cases hp

/-- No way through a regular pattern leads past the end of the text. -/
theorem Leads.pos_le_max {p : Node} {s t : State} (h : Leads text p s t)
    (hp : p.isRegular = true) : t.pos ≤ max s.pos text.size := by
  induction h with
  | empty => exact Nat.le_max_left _ _
  | chars hstep =>
    obtain ⟨c, hc, _, rfl⟩ := step?_eq_some hstep
    obtain ⟨hlt, _⟩ := Array.getElem?_eq_some_iff.1 hc
    exact Nat.le_trans hlt (Nat.le_max_right _ _)
  | assertion _ => exact Nat.le_max_left _ _
  | seq _ _ ihp ihq =>
    obtain ⟨hp, hq⟩ := Bool.and_eq_true_iff.1 hp
    have hfirst := ihp hp
    have hsecond := ihq hq
    omega
  | altLeft _ ih => exact ih (Bool.and_eq_true_iff.1 hp).1
  | altRight _ ih => exact ih (Bool.and_eq_true_iff.1 hp).2
  | starDone => exact Nat.le_max_left _ _
  | starRound _ _ _ ihp ihrest =>
    have hfirst := ihp hp
    have hrest := ihrest hp
    omega
  | plusDone _ _ ih => exact ih hp
  | plusRounds _ _ _ ihp ihrest =>
    have hfirst := ihp hp
    have hrest := ihrest hp
    omega
  | group _ ih => exact ih hp
  | look _ _ _ => cases hp
  | lookFailed => cases hp
  | backref _ => cases hp
  | atomic _ _ => cases hp
  | keep => cases hp
  | searchStart _ => cases hp
  | groupSet _ => cases hp
  | branchYes _ _ _ _ => cases hp
  | branchNo _ _ => cases hp

section

variable {greedy : Bool} {body : State → List State} {I : State → Prop}

theorem starWays_succ (hbody : ∀ s, I s → ∀ t ∈ body s, I t ∧ t.pos ≤ max s.pos text.size)
    (fuel : Nat) {s : State} (hs : I s) (hfuel : text.size ≤ s.pos + fuel) :
    starWays greedy body (fuel + 1) s = starWays greedy body fuel s := by
  induction fuel generalizing s with
  | zero =>
    have hnone : (body s).filter (s.pos < ·.pos) = [] := by
      rw [List.filter_eq_nil_iff]
      intro t ht
      have hpos := (hbody s hs t ht).2
      simp only [decide_eq_true_eq]
      omega
    simp [starWays, hnone]
  | succ fuel ih =>
    have hround : ((body s).filter (s.pos < ·.pos)).flatMap (starWays greedy body (fuel + 1)) =
        ((body s).filter (s.pos < ·.pos)).flatMap (starWays greedy body fuel) := by
      refine List.flatMap_congr fun t ht => ?_
      obtain ⟨ht, hlt⟩ := List.mem_filter.1 ht
      have hpos : s.pos < t.pos := of_decide_eq_true hlt
      exact ih (hbody s hs t ht).1 (by omega)
    rw [starWays, hround]
    rfl

/-- More fuel than there are characters left changes nothing. -/
theorem starWays_of_le (hbody : ∀ s, I s → ∀ t ∈ body s, I t ∧ t.pos ≤ max s.pos text.size)
    {fuel : Nat} {s : State} (hs : I s) (hfuel : text.size - s.pos ≤ fuel) :
    starWays greedy body fuel s = starWays greedy body (text.size - s.pos) s := by
  induction hfuel with
  | refl => rfl
  | @step fuel hfuel ih => rw [starWays_succ hbody fuel hs (Nat.sub_le_iff_le_add'.1 hfuel), ih]

end

/-- The place and all that the groups have matched lie in the text. -/
structure Inside (text : Array Char) (s : State) : Prop where
  pos_le : s.pos ≤ text.size
  stop_le : ∀ mark ∈ s.marks, mark.2.stop ≤ text.size

theorem Inside.mark {s : State} (h : Inside text s) (index first : Nat) :
    Inside text (s.mark index ⟨first, s.pos⟩) := by
  refine ⟨h.pos_le, fun mark hmark => ?_⟩
  rcases List.mem_cons.1 hmark with rfl | hmark
  · exact h.pos_le
  · exact h.stop_le mark (List.mem_of_mem_filter hmark)

theorem Inside.repeat? {s t : State} (h : Inside text s) {index : Nat}
    (hrepeat : s.repeat? text index = some t) : Inside text t := by
  unfold State.repeat? at hrepeat
  split at hrepeat
  · cases hrepeat
  · rename_i span hlookup
    dsimp only at hrepeat
    split at hrepeat
    · rename_i hsame
      cases hrepeat
      obtain ⟨before, after, hmarks, _⟩ := List.lookup_eq_some_iff.1 hlookup
      have hmem : (index, span) ∈ s.marks := by
        rw [hmarks]
        exact List.mem_append_right _ List.mem_cons_self
      have hstop := h.stop_le _ hmem
      have hsize := congrArg Array.size (eq_of_beq hsame)
      simp only [Array.size_extract] at hsize
      have hpos := h.pos_le
      exact ⟨by dsimp only at hstop ⊢; omega, h.stop_le⟩
    · cases hrepeat

/-- No way leads out of the text. -/
theorem Leads.inside {p : Node} {s t : State} (h : Leads text p s t) (hs : Inside text s) :
    Inside text t := by
  induction h with
  | empty => exact hs
  | chars hstep =>
    obtain ⟨c, hc, _, rfl⟩ := step?_eq_some hstep
    obtain ⟨hlt, _⟩ := Array.getElem?_eq_some_iff.1 hc
    exact ⟨hlt, hs.stop_le⟩
  | assertion _ => exact hs
  | seq _ _ ihp ihq => exact ihq (ihp hs)
  | altLeft _ ih => exact ih hs
  | altRight _ ih => exact ih hs
  | starDone => exact hs
  | starRound _ _ _ ihp ihrest => exact ihrest (ihp hs)
  | plusDone _ _ ih => exact ih hs
  | plusRounds _ _ _ ihp ihrest => exact ihrest (ihp hs)
  | group _ ih => exact (ih hs).mark _ _
  | look _ _ ih =>
    have hback : Inside text _ := ih ⟨Nat.le_trans (Nat.sub_le _ _) hs.pos_le, hs.stop_le⟩
    exact ⟨hs.pos_le, hback.stop_le⟩
  | lookFailed => exact hs
  | backref hrepeat => exact hs.repeat? hrepeat
  | atomic _ ih => exact ih hs
  | keep => exact ⟨hs.pos_le, hs.stop_le⟩
  | searchStart _ => exact hs
  | groupSet _ => exact hs
  | branchYes _ _ ihp ihq => exact ihq (ihp hs)
  | branchNo _ ih => exact ih hs

theorem Inside.of_mem_ways {p : Node} {s t : State} (hs : Inside text s) (ht : t ∈ ways text p s) :
    Inside text t :=
  (leads_of_mem_ways ht).inside hs

/-- A star needs no more fuel than there are characters left. -/
theorem starWays_ways_of_le {s : State} (hs : Inside text s) {fuel : Nat}
    (hfuel : text.size - s.pos ≤ fuel) (greedy : Bool) (p : Node) :
    starWays greedy (ways text p) fuel s = ways text (.star greedy p) s := by
  have hbody : ∀ s, Inside text s → ∀ t ∈ ways text p s,
      Inside text t ∧ t.pos ≤ max s.pos text.size := by
    intro s hs t ht
    have hinside := hs.of_mem_ways ht
    exact ⟨hinside, Nat.le_trans hinside.pos_le (Nat.le_max_right _ _)⟩
  exact starWays_of_le hbody hs hfuel

/-- The ways through a star are those through a round that consumes something and then the star, and
the way without a round. -/
theorem ways_star {s : State} (h : Inside text s) (greedy : Bool) (p : Node) :
    ways text (.star greedy p) s =
      if greedy then
        ((ways text p s).filter (s.pos < ·.pos)).flatMap (ways text (.star greedy p)) ++ [s]
      else s :: ((ways text p s).filter (s.pos < ·.pos)).flatMap (ways text (.star greedy p)) := by
  have hmore : ((ways text p s).filter (s.pos < ·.pos)).flatMap
        (starWays greedy (ways text p) (text.size - s.pos)) =
      ((ways text p s).filter (s.pos < ·.pos)).flatMap (ways text (.star greedy p)) := by
    refine List.flatMap_congr fun t ht => ?_
    obtain ⟨ht, hlt⟩ := List.mem_filter.1 ht
    have hpos : s.pos < t.pos := of_decide_eq_true hlt
    exact starWays_ways_of_le (h.of_mem_ways ht) (by omega) greedy p
  rw [← hmore, ← starWays_ways_of_le h (Nat.le_succ _) greedy p]
  rfl

theorem mem_ways_star {s u : State} (h : Inside text s) {greedy : Bool} {p : Node} :
    u ∈ ways text (.star greedy p) s ↔
      u = s ∨ ∃ t ∈ ways text p s, s.pos < t.pos ∧ u ∈ ways text (.star greedy p) t := by
  rw [ways_star h]
  cases greedy <;> simp [and_assoc, or_comm]

/-- Every way through a regular pattern is listed if it starts in the text. -/
theorem Leads.mem_ways {p : Node} {s t : State} (h : Leads text p s t) (hp : p.isRegular = true)
    (hs : Inside text s) : t ∈ ways text p s := by
  induction h with
  | empty => exact List.mem_singleton.2 rfl
  | chars hstep => exact Option.mem_toList.2 hstep
  | assertion hholds =>
    unfold ways
    rw [if_pos hholds]
    exact List.mem_singleton.2 rfl
  | seq hfirst _ ihp ihq =>
    obtain ⟨hp, hq⟩ := Bool.and_eq_true_iff.1 hp
    exact List.mem_flatMap.2 ⟨_, ihp hp hs, ihq hq (hfirst.inside hs)⟩
  | altLeft _ ih =>
    exact List.mem_append_left _ (ih (Bool.and_eq_true_iff.1 hp).1 hs)
  | altRight _ ih =>
    exact List.mem_append_right _ (ih (Bool.and_eq_true_iff.1 hp).2 hs)
  | starDone => exact (mem_ways_star hs).2 (.inl rfl)
  | starRound hfirst hpos _ ihp ihrest =>
    exact (mem_ways_star hs).2
      (.inr ⟨_, ihp hp hs, hpos, ihrest hp (hfirst.inside hs)⟩)
  | plusDone _ hpos ih =>
    refine List.mem_flatMap.2 ⟨_, ih hp hs, ?_⟩
    rw [if_neg hpos]
    exact List.mem_singleton.2 rfl
  | plusRounds hfirst hpos _ ihp ihrest =>
    refine List.mem_flatMap.2 ⟨_, ihp hp hs, ?_⟩
    rw [if_pos hpos]
    exact ihrest hp (hfirst.inside hs)
  | group _ ih => exact List.mem_map_of_mem (ih hp hs)
  | look _ _ _ => cases hp
  | lookFailed => cases hp
  | backref _ => cases hp
  | atomic _ _ => cases hp
  | keep => cases hp
  | searchStart _ => cases hp
  | groupSet _ => cases hp
  | branchYes _ _ _ _ => cases hp
  | branchNo _ _ => cases hp

end Banknote.Pattern
