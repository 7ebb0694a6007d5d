import Banknote.Proofs.Pattern.Ways
import Mathlib.Data.List.Induction

/-!
# Linear matching finds the preferred way

Linear matching drops a state as soon as a state before it has the same place.  What comes to light
later from the dropped state would come to light from the other one first, so nothing is lost:
`firstEnd_eq_head?_ways`.

* Places.  `Places.contains_insert` and `Places.ext_contains`: a set of places is given by what it
  contains.
* Lists that are alike.  `Alike` lists have the same first state of each place, in the same order.
  `Alike.flatMap` carries this through whatever is done with a state, as long as the places that
  this leads to depend on the place of the state alone (`ByPlace`).
* Rounds.  `rounds_eq_foldl`: the rounds of a star that are recorded are the first ones of each place
  among all rounds.  The invariant is `Closed`: rounds from a recorded place lead to recorded places.
* Patterns.  `alike_ends` follows `ends` through the pattern.
-/

namespace Banknote.Pattern

variable {text : Array Char}

/-! ## Places -/

theorem Places.ext_contains {ps qs : Places} (h : ∀ pos, ps.contains pos = qs.contains pos) :
    ps = qs := by
  cases ps
  cases qs
  exact congrArg Places.mk (Nat.eq_of_testBit_eq h)

theorem Places.contains_insert (ps : Places) (pos pos' : Nat) :
    (ps.insert pos).contains pos' = (ps.contains pos' || pos == pos') := by
  simp only [Places.insert, Places.contains, Nat.testBit_or, Nat.one_shiftLeft,
    Nat.testBit_two_pow]
  rfl

theorem Places.insert_comm (ps : Places) (pos pos' : Nat) :
    (ps.insert pos).insert pos' = (ps.insert pos').insert pos := by
  refine Places.ext_contains fun place => ?_
  simp only [Places.contains_insert, Bool.or_assoc, Bool.or_comm (pos == place)]

/-! ## Adding states -/

theorem not_contains_empty (pos : Nat) : Places.contains {} pos = false := Nat.zero_testBit pos

theorem add_empty (s : State) : ({} : Reached).add s = ⟨Places.insert {} s.pos, [s]⟩ := by
  rw [Reached.add, if_neg (ne_true_of_eq_false (not_contains_empty s.pos))]

theorem contains_add {r : Reached} {s : State} {pos : Nat} :
    (r.add s).places.contains pos = true ↔ r.places.contains pos = true ∨ s.pos = pos := by
  unfold Reached.add
  split
  · rename_i htaken
    refine ⟨.inl, fun h => h.elim id fun hpos => ?_⟩
    rw [← hpos]
    exact htaken
  · rw [Places.contains_insert, Bool.or_eq_true, beq_iff_eq]

theorem contains_foldl_add {states : List State} {r : Reached} {pos : Nat} :
    (states.foldl Reached.add r).places.contains pos = true ↔
      r.places.contains pos = true ∨ ∃ s ∈ states, s.pos = pos := by
  induction states generalizing r with
  | nil => simp
  | cons s rest ih => simp [ih, contains_add, or_assoc]

theorem add_of_taken {r : Reached} {s : State} (h : r.places.contains s.pos = true) :
    r.add s = r := by
  rw [Reached.add, if_pos h]

/-- States whose places are taken add nothing. -/
theorem foldl_add_of_taken {states : List State} {r : Reached}
    (h : ∀ s ∈ states, r.places.contains s.pos = true) : states.foldl Reached.add r = r := by
  induction states with
  | nil => rfl
  | cons s rest ih =>
    rw [List.foldl_cons, add_of_taken (h s List.mem_cons_self)]
    exact ih fun t ht => h t (List.mem_cons_of_mem _ ht)

/-! ## Lists that are alike -/

/-- The states with the first one only of each place. -/
def firsts (states : List State) : List State := (states.foldl Reached.add {}).states.reverse

theorem firstOfPlace_eq_firsts (states : List State) : firstOfPlace states = firsts states := by
  unfold firstOfPlace
  split
  · rfl
  · rename_i s
    rw [firsts, List.foldl_cons, add_empty]
    rfl
  · rfl

theorem firsts_concat (states : List State) (s : State) :
    ((∃ t ∈ states, t.pos = s.pos) ∧ firsts (states ++ [s]) = firsts states) ∨
      firsts (states ++ [s]) = firsts states ++ [s] := by
  by_cases htaken : (states.foldl Reached.add {}).places.contains s.pos = true
  · have hadded : ∃ t ∈ states, t.pos = s.pos := by
      exact (contains_foldl_add.1 htaken).resolve_left (ne_true_of_eq_false (not_contains_empty _))
    refine .inl ⟨hadded, ?_⟩
    simp only [firsts, List.foldl_append, List.foldl_cons, List.foldl_nil, add_of_taken htaken]
  · refine .inr ?_
    simp only [firsts, List.foldl_append, List.foldl_cons, List.foldl_nil, Reached.add,
      if_neg htaken, List.reverse_cons]

/-- Two lists of states have the same first state of each place, in the same order. -/
def Alike (states states' : List State) : Prop :=
  ∀ r : Reached, states.foldl Reached.add r = states'.foldl Reached.add r

namespace Alike

variable {states states' : List State}

theorem refl (states : List State) : Alike states states := fun _ => rfl

theorem of_eq (h : states = states') : Alike states states' := h ▸ refl _

theorem symm (h : Alike states states') : Alike states' states := fun r => (h r).symm

theorem trans {states'' : List State} (h : Alike states states') (h' : Alike states' states'') :
    Alike states states'' := fun r => (h r).trans (h' r)

theorem append {more more' : List State} (h : Alike states states') (hmore : Alike more more') :
    Alike (states ++ more) (states' ++ more') := by
  intro r
  rw [List.foldl_append, List.foldl_append, h, hmore]

theorem firsts_eq (h : Alike states states') : firsts states = firsts states' := by
  rw [firsts, firsts, h]

theorem flatMap_congr {f g : State → List State} (h : ∀ s ∈ states, Alike (f s) (g s)) :
    Alike (states.flatMap f) (states.flatMap g) := by
  induction states with
  | nil => exact refl _
  | cons s rest ih =>
    rw [List.flatMap_cons, List.flatMap_cons]
    exact (h s List.mem_cons_self).append (ih fun t ht => h t (List.mem_cons_of_mem _ ht))

end Alike

/-- The places to which a state leads depend on its place alone. -/
def ByPlace (f : State → List State) : Prop :=
  ∀ s s' t : State, s.pos = s'.pos → t ∈ f s → ∃ t' ∈ f s', t'.pos = t.pos

theorem byPlace_singleton {f : State → State} (hf : ∀ s, (f s).pos = s.pos) :
    ByPlace fun s => [f s] := by
  intro s s' t hpos ht
  obtain rfl := List.mem_singleton.1 ht
  exact ⟨f s', List.mem_singleton_self _, by rw [hf, hf, hpos]⟩

theorem byPlace_nil : ByPlace fun _ => [] := fun _ _ _ _ ht => by cases ht

theorem ByPlace.ite {f g : State → List State} (hf : ByPlace f) (hg : ByPlace g) (q : Nat → Prop)
    [DecidablePred q] : ByPlace fun s => if q s.pos then f s else g s := by
  intro s s' t hpos ht
  dsimp only at ht ⊢
  rw [← hpos]
  split at ht
  · rename_i hq
    rw [if_pos hq]
    exact hf s s' t hpos ht
  · rename_i hq
    rw [if_neg hq]
    exact hg s s' t hpos ht

theorem ByPlace.flatMap {f g : State → List State} (hf : ByPlace f) (hg : ByPlace g) :
    ByPlace fun s => (f s).flatMap g := by
  intro s s' u hpos hu
  obtain ⟨t, ht, hu⟩ := List.mem_flatMap.1 hu
  obtain ⟨t', ht', heq⟩ := hf s s' t hpos ht
  obtain ⟨u', hu', heq'⟩ := hg t t' u heq.symm hu
  exact ⟨u', List.mem_flatMap.2 ⟨t', ht', hu'⟩, heq'⟩

/-- What is dropped leads nowhere that is not reached before. -/
theorem alike_flatMap_firsts {f : State → List State} (hf : ByPlace f) (states : List State) :
    Alike ((firsts states).flatMap f) (states.flatMap f) := by
  -- From the back, since a state is dropped because of what stands before it.
  induction states using List.reverseRecOn with
  | nil => exact .refl _
  | append_singleton states s ih =>
    rcases firsts_concat states s with ⟨⟨t, ht, hpos⟩, heq⟩ | heq
    · rw [heq, List.flatMap_append]
      intro r
      have htaken : ∀ u ∈ [s].flatMap f,
          ((states.flatMap f).foldl Reached.add r).places.contains u.pos = true := by
        intro u hu
        rw [List.flatMap_singleton] at hu
        obtain ⟨u', hu', hpos'⟩ := hf s t u hpos.symm hu
        exact contains_foldl_add.2 (.inr ⟨u', List.mem_flatMap.2 ⟨t, ht, hu'⟩, hpos'⟩)
      rw [List.foldl_append, foldl_add_of_taken htaken, ih r]
    · rw [heq, List.flatMap_append, List.flatMap_append]
      exact ih.append (.refl _)

theorem Alike.flatMap {states states' : List State} (h : Alike states states')
    {f : State → List State} (hf : ByPlace f) : Alike (states.flatMap f) (states'.flatMap f) := by
  refine (alike_flatMap_firsts hf states).symm.trans ?_
  rw [h.firsts_eq]
  exact alike_flatMap_firsts hf states'

theorem Alike.exists_pos_eq {states states' : List State} (h : Alike states states') {s : State}
    (hs : s ∈ states) : ∃ s' ∈ states', s'.pos = s.pos := by
  have hadded : (states.foldl Reached.add {}).places.contains s.pos = true :=
    contains_foldl_add.2 (.inr ⟨s, hs, rfl⟩)
  rw [h] at hadded
  exact (contains_foldl_add.1 hadded).resolve_left (ne_true_of_eq_false (not_contains_empty _))

theorem ByPlace.of_alike {f g : State → List State} (hg : ByPlace g)
    (h : ∀ s, Alike (f s) (g s)) : ByPlace f := by
  intro s s' t hpos ht
  obtain ⟨u, hu, heq⟩ := (h s).exists_pos_eq ht
  obtain ⟨u', hu', heq'⟩ := hg s s' u hpos hu
  obtain ⟨t', ht', heq''⟩ := (h s').symm.exists_pos_eq hu'
  exact ⟨t', ht', by omega⟩

theorem alike_firstOfPlace (states : List State) : Alike (firstOfPlace states) states := by
  have halike := alike_flatMap_firsts (byPlace_singleton fun _ => rfl) states
  rw [List.flatMap_singleton', List.flatMap_singleton'] at halike
  rw [firstOfPlace_eq_firsts]
  exact halike

theorem filter_eq_flatMap (q : State → Bool) (states : List State) :
    states.filter q = states.flatMap fun s => if q s then [s] else [] := by
  rw [← List.filterMap_eq_filter, List.filterMap_eq_flatMap_toList]
  refine List.flatMap_congr fun s _ => ?_
  rw [Option.guard]
  split <;> rfl

theorem getLast?_foldl_add {states : List State} {r : Reached} (h : r.states ≠ []) :
    (states.foldl Reached.add r).states.getLast? = r.states.getLast? := by
  induction states generalizing r with
  | nil => rfl
  | cons s rest ih =>
    have hadd : (r.add s).states ≠ [] ∧ (r.add s).states.getLast? = r.states.getLast? := by
      unfold Reached.add
      split
      · exact ⟨h, rfl⟩
      · exact ⟨List.cons_ne_nil _ _, List.getLast?_cons_of_ne_nil h⟩
    rw [List.foldl_cons, ih hadd.1, hadd.2]

theorem head?_firsts (states : List State) : (firsts states).head? = states.head? := by
  cases states with
  | nil => rfl
  | cons s rest =>
    rw [firsts, List.head?_reverse, List.foldl_cons, add_empty]
    exact getLast?_foldl_add (List.cons_ne_nil _ _)

theorem Alike.head?_eq {states states' : List State} (h : Alike states states') :
    states.head? = states'.head? := by
  rw [← head?_firsts states, h.firsts_eq, head?_firsts]

/-! ## Ways and places -/

section

variable {greedy : Bool} {body : State → List State}

theorem byPlace_starWays (hbody : ByPlace body) (fuel : Nat) :
    ByPlace (starWays greedy body fuel) := by
  induction fuel with
  | zero => exact byPlace_singleton fun _ => rfl
  | succ fuel ih =>
    intro s s' t hpos ht
    rcases mem_starWays_succ.1 ht with rfl | ⟨u, hu, hlt, ht⟩
    · exact ⟨s', mem_starWays_succ.2 (.inl rfl), hpos.symm⟩
    · obtain ⟨u', hu', heq⟩ := hbody s s' u hpos hu
      obtain ⟨t', ht', heq'⟩ := ih u u' t heq.symm ht
      exact ⟨t', mem_starWays_succ.2 (.inr ⟨u', hu', by omega, ht'⟩), heq'⟩

theorem starWays_of_bounded (hpos : ∀ s t, t ∈ body s → t.pos ≤ max s.pos text.size) {fuel : Nat}
    {s : State} (hfuel : text.size - s.pos ≤ fuel) :
    starWays greedy body fuel s = starWays greedy body (text.size - s.pos) s :=
  starWays_of_le (I := fun _ => True) (fun s _ t ht => ⟨trivial, hpos s t ht⟩) trivial hfuel

/-- The rounds after a first one that has come from a place. -/
theorem byPlace_laterRounds (hbody : ByPlace body) (pos : Nat) :
    ByPlace fun t => if pos < t.pos then starWays greedy body (text.size - t.pos) t else [t] := by
  have hrounds : ByPlace fun t => starWays greedy body (text.size - t.pos) t := by
    intro s s' t hpos ht
    dsimp only at ht ⊢
    rw [hpos] at ht
    exact byPlace_starWays hbody _ s s' t hpos ht
  exact hrounds.ite (byPlace_singleton fun _ => rfl) (pos < ·)

theorem pos_le_of_mem_starWays {fuel : Nat} {s t : State} (h : t ∈ starWays greedy body fuel s) :
    s.pos ≤ t.pos := by
  induction fuel generalizing s with
  | zero =>
    obtain rfl := List.mem_singleton.1 h
    exact Nat.le_refl _
  | succ fuel ih =>
    rcases mem_starWays_succ.1 h with rfl | ⟨u, _, hpos, hrest⟩
    · exact Nat.le_refl _
    · exact Nat.le_trans (Nat.le_of_lt hpos) (ih hrest)

/-- The rounds of a star lead on to where rounds from there lead. -/
theorem mem_starWays_trans (hbody : ∀ s t, t ∈ body s → t.pos ≤ max s.pos text.size) {fuel : Nat}
    {s t u : State} (hfuel : text.size - s.pos ≤ fuel) (ht : t ∈ starWays greedy body fuel s)
    (hu : u ∈ starWays greedy body (text.size - t.pos) t) :
    u ∈ starWays greedy body fuel s := by
  induction fuel generalizing s with
  | zero =>
    obtain rfl := List.mem_singleton.1 ht
    rwa [Nat.le_zero.1 hfuel] at hu
  | succ fuel ih =>
    rcases mem_starWays_succ.1 ht with rfl | ⟨v, hv, hpos, ht⟩
    · rwa [starWays_of_bounded hbody hfuel]
    · exact mem_starWays_succ.2 (.inr ⟨v, hv, hpos, ih (by omega) ht⟩)

end

/-- The places to which the ways through a regular pattern lead depend on the place where they start
alone. -/
theorem byPlace_ways {p : Node} (hp : p.isRegular = true) : ByPlace (ways text p) := by
  induction p with
  | empty => exact byPlace_singleton fun _ => rfl
  | chars set =>
    intro s s' t hpos ht
    obtain ⟨c, hc, hset, rfl⟩ := step?_eq_some (Option.mem_toList.1 ht)
    refine ⟨{ s' with pos := s'.pos + 1 }, ?_, by rw [hpos]⟩
    rw [hpos] at hc
    simp [ways, State.step?, hc, hset]
  | assertion a =>
    exact (byPlace_singleton fun _ => rfl).ite byPlace_nil fun pos => a.holds text pos = true
  | seq p q ihp ihq =>
    obtain ⟨hp, hq⟩ := Bool.and_eq_true_iff.1 hp
    exact (ihp hp).flatMap (ihq hq)
  | alt p q ihp ihq =>
    obtain ⟨hp, hq⟩ := Bool.and_eq_true_iff.1 hp
    intro s s' t hpos ht
    rcases List.mem_append.1 ht with ht | ht
    · obtain ⟨t', ht', heq⟩ := ihp hp s s' t hpos ht
      exact ⟨t', List.mem_append_left _ ht', heq⟩
    · obtain ⟨t', ht', heq⟩ := ihq hq s s' t hpos ht
      exact ⟨t', List.mem_append_right _ ht', heq⟩
  | star greedy p ih =>
    intro s s' t hpos ht
    unfold ways at ht ⊢
    rw [← hpos]
    exact byPlace_starWays (ih hp) _ s s' t hpos ht
  | plus greedy p ih =>
    intro s s' t hpos ht
    obtain ⟨u, hu, ht⟩ := List.mem_flatMap.1 ht
    obtain ⟨u', hu', heq⟩ := ih hp s s' u hpos hu
    obtain ⟨t', ht', heq'⟩ := byPlace_laterRounds (ih hp) s.pos u u' t heq.symm ht
    rw [hpos] at ht'
    exact ⟨t', List.mem_flatMap.2 ⟨u', hu', ht'⟩, heq'⟩
  | group index p ih =>
    intro s s' t hpos ht
    obtain ⟨u, hu, rfl⟩ := List.mem_map.1 ht
    obtain ⟨u', hu', heq⟩ := ih hp s s' u hpos hu
    exact ⟨_, List.mem_map_of_mem hu', heq⟩
  | look _ _ _ => cases hp
  | backref _ => cases hp
  | atomic _ => cases hp
  | keep => cases hp
  | searchStart => cases hp
  | groupSet _ => cases hp
  | branch _ _ _ => cases hp

/-! ## Rounds -/

section

variable {greedy : Bool} {body : State → List State}

/-- Rounds from the recorded places, of those not before a place, lead to recorded places. -/
def Closed (text : Array Char) (greedy : Bool) (body : State → List State) (r : Reached)
    (least : Nat) : Prop :=
  ∀ s : State, least ≤ s.pos → r.places.contains s.pos = true →
    ∀ t ∈ starWays greedy body (text.size - s.pos) s, r.places.contains t.pos = true

theorem Closed.foldl_add (hpos : ∀ s t, t ∈ body s → t.pos ≤ max s.pos text.size)
    (hbody : ByPlace body) {r : Reached} {least : Nat} (h : Closed text greedy body r least)
    {fuel : Nat} {s : State} (hfuel : text.size - s.pos ≤ fuel) :
    Closed text greedy body ((starWays greedy body fuel s).foldl Reached.add r) least := by
  intro t hleast ht u hu
  rcases contains_foldl_add.1 ht with ht | ⟨t', ht', heq⟩
  · exact contains_foldl_add.2 (.inl (h t hleast ht u hu))
  · have hstar : ByPlace (starWays greedy body (text.size - t.pos)) := byPlace_starWays hbody _
    obtain ⟨u', hu', hplace⟩ := hstar t t' u heq.symm hu
    rw [← heq] at hu'
    exact contains_foldl_add.2 (.inr ⟨u', mem_starWays_trans hpos hfuel ht' hu', hplace⟩)

theorem Closed.insert {r : Reached} {pos : Nat} (h : Closed text greedy body r pos)
    (states : List State) : Closed text greedy body ⟨r.places.insert pos, states⟩ (pos + 1) := by
  intro s hle htaken t ht
  rw [Places.contains_insert, Bool.or_eq_true, beq_iff_eq] at htaken ⊢
  exact .inl (h s (by omega) (htaken.resolve_right (by omega)) t ht)

theorem foldl_add_insert {states : List State} {r : Reached} {pos : Nat}
    (h : ∀ s ∈ states, s.pos ≠ pos) :
    states.foldl Reached.add { r with places := r.places.insert pos } =
      { states.foldl Reached.add r with
        places := (states.foldl Reached.add r).places.insert pos } := by
  induction states generalizing r with
  | nil => rfl
  | cons s rest ih =>
    have hadd : Reached.add { r with places := r.places.insert pos } s =
        { r.add s with places := (r.add s).places.insert pos } := by
      have hne : (pos == s.pos) = false := beq_false_of_ne (h s List.mem_cons_self).symm
      simp only [Reached.add, Places.contains_insert, hne, Bool.or_false]
      split
      · rfl
      · rw [Places.insert_comm]
    rw [List.foldl_cons, List.foldl_cons, hadd]
    exact ih fun t ht => h t (List.mem_cons_of_mem _ ht)

/-- A state whose place is free may take its place before states of later places are added. -/
theorem foldl_add_concat {states : List State} {r : Reached} {s : State}
    (hlater : ∀ t ∈ states, s.pos < t.pos) (hfree : ¬ r.places.contains s.pos = true) :
    (states ++ [s]).foldl Reached.add r =
      let r' := states.foldl Reached.add { r with places := r.places.insert s.pos }
      { r' with states := s :: r'.states } := by
  have hlast : ¬ (states.foldl Reached.add r).places.contains s.pos = true := by
    intro htaken
    obtain ⟨t, ht, heq⟩ := (contains_foldl_add.1 htaken).resolve_left hfree
    exact absurd heq (Nat.ne_of_gt (hlater t ht))
  rw [List.foldl_append, List.foldl_cons, List.foldl_nil, Reached.add, if_neg hlast,
    foldl_add_insert fun t ht => Nat.ne_of_gt (hlater t ht)]

/-- Recording the rounds from one state after the other, given that each of them is recorded as if
its rounds were added one after the other. -/
theorem foldl_eq_foldl_flatMap {step : Reached → State → Reached} {reach : State → List State}
    {least : Nat} {states : List State}
    (hstep : ∀ s ∈ states, ∀ r, Closed text greedy body r least →
      step r s = (reach s).foldl Reached.add r ∧
        Closed text greedy body ((reach s).foldl Reached.add r) least)
    {r : Reached} (hclosed : Closed text greedy body r least) :
    states.foldl step r = (states.flatMap reach).foldl Reached.add r := by
  induction states generalizing r with
  | nil => rfl
  | cons s rest ih =>
    obtain ⟨hfirst, hclosed⟩ := hstep s List.mem_cons_self r hclosed
    rw [List.foldl_cons, List.flatMap_cons, List.foldl_append, hfirst]
    exact ih (fun t ht => hstep t (List.mem_cons_of_mem _ ht)) hclosed

/-- The rounds of a star are recorded as if all of them were added one after the other. -/
theorem rounds_eq_foldl (hpos : ∀ s t, t ∈ body s → t.pos ≤ max s.pos text.size)
    (hbody : ByPlace body) {fuel : Nat} {r : Reached} {s : State}
    (hfuel : text.size - s.pos ≤ fuel) (hclosed : Closed text greedy body r s.pos) :
    rounds greedy body fuel r s = (starWays greedy body fuel s).foldl Reached.add r := by
  induction fuel generalizing r s with
  | zero => rfl
  | succ fuel ih =>
    unfold rounds
    split
    · rename_i htaken
      rw [starWays_of_bounded hpos hfuel]
      exact (foldl_add_of_taken (hclosed s (Nat.le_refl _) htaken)).symm
    · rename_i hfree
      -- The place of `s` is recorded while its rounds are under way, so it is not closed yet.  All
      -- further rounds start behind it, where the invariant holds.
      have hlater : ∀ t ∈ (body s).filter (s.pos < ·.pos), s.pos < t.pos :=
        fun t ht => of_decide_eq_true (List.mem_filter.1 ht).2
      have hnext : ∀ r : Reached, Closed text greedy body r (s.pos + 1) →
          ((body s).filter (s.pos < ·.pos)).foldl (rounds greedy body fuel) r =
            (((body s).filter (s.pos < ·.pos)).flatMap (starWays greedy body fuel)).foldl
              Reached.add r := by
        intro r hclosed
        refine foldl_eq_foldl_flatMap (fun t ht r hclosed => ?_) hclosed
        have hfuel : text.size - t.pos ≤ fuel := by
          have hlt := hlater t ht
          omega
        have hrest : Closed text greedy body r t.pos :=
          fun u hu => hclosed u (Nat.le_trans (hlater t ht) hu)
        exact ⟨ih hfuel hrest, hclosed.foldl_add hpos hbody hfuel⟩
      cases greedy with
      | true =>
        have hmore : ∀ t ∈ ((body s).filter (s.pos < ·.pos)).flatMap (starWays true body fuel),
            s.pos < t.pos := by
          intro t ht
          obtain ⟨u, hu, ht⟩ := List.mem_flatMap.1 ht
          exact Nat.lt_of_lt_of_le (hlater u hu) (pos_le_of_mem_starWays ht)
        simp only [if_true, starWays]
        rw [hnext _ (hclosed.insert _), foldl_add_concat hmore hfree]
      | false =>
        simp only [Bool.false_eq_true, if_false, starWays, List.foldl_cons]
        rw [Reached.add, if_neg hfree]
        exact hnext _ (hclosed.insert _)

theorem alike_starEnds (hpos : ∀ s t, t ∈ body s → t.pos ≤ max s.pos text.size)
    (hbody : ByPlace body) (states : List State) :
    Alike (starEnds text.size greedy body states)
      (states.flatMap fun s => starWays greedy body (text.size - s.pos) s) := by
  have hempty : Closed text greedy body {} 0 := by
    intro s _ htaken
    exact absurd htaken (ne_true_of_eq_false (not_contains_empty s.pos))
  have hstep : ∀ s ∈ states, ∀ r, Closed text greedy body r 0 →
      rounds greedy body (text.size - s.pos + 1) r s =
          (starWays greedy body (text.size - s.pos) s).foldl Reached.add r ∧
        Closed text greedy body
          ((starWays greedy body (text.size - s.pos) s).foldl Reached.add r) 0 := by
    intro s _ r hclosed
    have hfuel : text.size - s.pos ≤ text.size - s.pos + 1 := Nat.le_succ _
    have hrest : Closed text greedy body r s.pos := fun t _ => hclosed t (Nat.zero_le _)
    refine ⟨?_, hclosed.foldl_add hpos hbody (Nat.le_refl _)⟩
    rw [rounds_eq_foldl hpos hbody hfuel hrest, starWays_of_bounded hpos hfuel]
  rw [starEnds, foldl_eq_foldl_flatMap hstep hempty, ← firsts, ← firstOfPlace_eq_firsts]
  exact alike_firstOfPlace _

/-- Rounds are alike if each round is. -/
theorem alike_starWays {body' : State → List State} (h : ∀ s, Alike (body s) (body' s))
    (hbody : ByPlace body') (fuel : Nat) (s : State) :
    Alike (starWays greedy body fuel s) (starWays greedy body' fuel s) := by
  induction fuel generalizing s with
  | zero => exact .refl _
  | succ fuel ih =>
    have hlater : ByPlace fun t => if decide (s.pos < t.pos) then [t] else [] :=
      (byPlace_singleton fun _ => rfl).ite byPlace_nil fun pos => decide (s.pos < pos) = true
    have hnext : Alike ((body s).filter (s.pos < ·.pos)) ((body' s).filter (s.pos < ·.pos)) := by
      rw [filter_eq_flatMap, filter_eq_flatMap]
      exact (h s).flatMap hlater
    have hmore : Alike (((body s).filter (s.pos < ·.pos)).flatMap (starWays greedy body fuel))
        (((body' s).filter (s.pos < ·.pos)).flatMap (starWays greedy body' fuel)) :=
      (Alike.flatMap_congr fun t _ => ih t).trans (hnext.flatMap (byPlace_starWays hbody fuel))
    cases greedy with
    | true => exact hmore.append (.refl [s])
    | false => exact (Alike.refl [s]).append hmore

end

/-! ## Stars of one character -/

theorem starWays_chars (set : CharSet) (greedy : Bool) (fuel : Nat) (s : State) :
    starWays greedy (ways text (.chars set)) fuel s =
      if greedy then (charRun text set fuel s).reverse else charRun text set fuel s := by
  induction fuel generalizing s with
  | zero => cases greedy <;> rfl
  | succ fuel ih =>
    unfold charRun starWays
    cases hstep : s.step? text set with
    | some t =>
      have hnext : (ways text (.chars set) s).filter (s.pos < ·.pos) = [t] := by
        obtain ⟨_, _, _, rfl⟩ := step?_eq_some hstep
        simp [ways, hstep]
      rw [hnext, List.flatMap_singleton, ih t]
      cases greedy <;> simp
    | none =>
      have hnext : (ways text (.chars set) s).filter (s.pos < ·.pos) = [] := by
        simp [ways, hstep]
      rw [hnext]
      cases greedy <;> rfl

/-! ## Patterns -/

theorem alike_starEnds_ways (greedy : Bool) {p : Node} (hp : p.isRegular = true)
    (h : ∀ states, Alike (ends text p states) (states.flatMap (ways text p)))
    (states : List State) :
    Alike (starEnds text.size greedy (fun s => ends text p [s]) states)
      (states.flatMap (ways text (.star greedy p))) := by
  have hround : ∀ s, Alike (ends text p [s]) (ways text p s) := fun s => by
    have hone := h [s]
    rwa [List.flatMap_singleton] at hone
  have hpos : ∀ s t, t ∈ ends text p [s] → t.pos ≤ max s.pos text.size := by
    intro s t ht
    obtain ⟨s', hs', hpasses⟩ := passes_of_mem_ends ht
    obtain rfl := List.mem_singleton.1 hs'
    exact hpasses.1.pos_le_max hp
  have hways : ByPlace (ways text p) := byPlace_ways hp
  refine (alike_starEnds hpos (hways.of_alike hround) states).trans (.flatMap_congr fun s _ => ?_)
  exact alike_starWays hround hways _ s

/-- Linear matching leads where the ways through the pattern lead, in their order. -/
theorem alike_ends {p : Node} (hp : p.isRegular = true) (states : List State) :
    Alike (ends text p states) (states.flatMap (ways text p)) := by
  induction p generalizing states with
  | empty => exact .of_eq (List.flatMap_singleton' states).symm
  | chars set => exact .of_eq (List.filterMap_eq_flatMap_toList _ _)
  | assertion a => exact .of_eq (filter_eq_flatMap _ _)
  | seq p q ihp ihq =>
    obtain ⟨hp, hq⟩ := Bool.and_eq_true_iff.1 hp
    have hways : ByPlace (ways text q) := byPlace_ways hq
    have hfirst := (ihp hp states).flatMap hways
    rw [List.flatMap_assoc] at hfirst
    exact (ihq hq _).trans hfirst
  | alt p q ihp ihq =>
    obtain ⟨hp, hq⟩ := Bool.and_eq_true_iff.1 hp
    refine (alike_firstOfPlace _).trans (.flatMap_congr fun s _ => ?_)
    have hboth := (ihp hp [s]).append (ihq hq [s])
    rwa [List.flatMap_singleton, List.flatMap_singleton] at hboth
  | star greedy p ih =>
    unfold ends
    split
    · refine .of_eq ?_
      rw [List.flatMap_singleton]
      exact (starWays_chars _ greedy _ _).symm
    · have hbody : p.isRegular = true := hp
      exact alike_starEnds_ways greedy hbody (ih hbody) states
  | plus greedy p ih =>
    refine (alike_firstOfPlace _).trans (.flatMap_congr fun s _ => ?_)
    have hbody : p.isRegular = true := hp
    have hlater : ByPlace fun t =>
        if s.pos < t.pos then ways text (.star greedy p) t else [t] :=
      byPlace_laterRounds (byPlace_ways hbody) s.pos
    have hfirst := (ih hbody [s]).flatMap hlater
    rw [List.flatMap_singleton] at hfirst
    refine .trans (.flatMap_congr fun t _ => ?_) hfirst
    split
    · have hrest := alike_starEnds_ways greedy hbody (ih hbody) [t]
      rw [List.flatMap_singleton] at hrest
      exact hrest
    · exact .refl _
  | group index p ih =>
    refine (alike_firstOfPlace _).trans (.flatMap_congr fun s _ => ?_)
    have hmark : ByPlace fun t => [t.mark index ⟨s.pos, t.pos⟩] := byPlace_singleton fun _ => rfl
    have hone := (ih hp [s]).flatMap hmark
    rw [List.flatMap_singleton, ← List.map_eq_flatMap, ← List.map_eq_flatMap] at hone
    exact hone
  | look _ _ _ => cases hp
  | backref _ => cases hp
  | atomic _ => cases hp
  | keep => cases hp
  | searchStart => cases hp
  | groupSet _ => cases hp
  | branch _ _ _ => cases hp

/-- Linear matching finds the preferred way to match a regular pattern. -/
theorem firstEnd_eq_head?_ways {p : Node} (hp : p.isRegular = true) (s : State) :
    firstEnd text p s = (ways text p s).head? := by
  have halike : Alike (ends text p [s]) ([s].flatMap (ways text p)) := alike_ends hp [s]
  rw [List.flatMap_singleton] at halike
  exact halike.head?_eq

end Banknote.Pattern
