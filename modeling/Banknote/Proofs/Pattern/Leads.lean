import Banknote.Pattern.Matcher

/-!
# The ways to match a pattern

`Leads text p s t` says that some way to match the pattern `p` leads from the state `s` to the state
`t`.  It knows nothing of preference, of what must follow and of a limit, so it says less than a
search: whatever a search finds, some way leads there.

* Linear matching.  `passes_of_mem_ends` follows `ends` through the pattern, and shows besides that
  the reported start never moves.
* Backtracking.  `sound_run` follows `run`; what has to follow the pattern is kept general.
* Searches.  `leads_of_attempt`, `search_found` and `leads_of_match?` carry this over to matchers.
* Places.  `Leads.pos_le`: no way leads backwards.
-/

namespace Banknote.Pattern

/-- Some way to match a pattern leads from one state to another.  A look or a condition that has to
fail asks nothing here. -/
inductive Leads (text : Array Char) : Node → State → State → Prop
  | empty {s : State} : Leads text .empty s s
  | chars {set : CharSet} {s t : State} (hstep : s.step? text set = some t) :
    Leads text (.chars set) s t
  | assertion {a : Assertion} {s : State} (hholds : a.holds text s.pos = true) :
    Leads text (.assertion a) s s
  | seq {p q : Node} {s t u : State} (hp : Leads text p s t) (hq : Leads text q t u) :
    Leads text (.seq p q) s u
  | altLeft {p q : Node} {s t : State} (hp : Leads text p s t) : Leads text (.alt p q) s t
  | altRight {p q : Node} {s t : State} (hq : Leads text q s t) : Leads text (.alt p q) s t
  | starDone {greedy : Bool} {p : Node} {s : State} : Leads text (.star greedy p) s s
  | starRound {greedy : Bool} {p : Node} {s t u : State} (hp : Leads text p s t)
    (hpos : s.pos < t.pos) (hrest : Leads text (.star greedy p) t u) :
    Leads text (.star greedy p) s u
  | plusDone {greedy : Bool} {p : Node} {s t : State} (hp : Leads text p s t)
    (hpos : ¬ s.pos < t.pos) : Leads text (.plus greedy p) s t
  | plusRounds {greedy : Bool} {p : Node} {s t u : State} (hp : Leads text p s t)
    (hpos : s.pos < t.pos) (hrest : Leads text (.star greedy p) t u) :
    Leads text (.plus greedy p) s u
  | group {index : Nat} {p : Node} {s t : State} (hp : Leads text p s t) :
    Leads text (.group index p) s (t.mark index ⟨s.pos, t.pos⟩)
  | look {back : Nat} {p : Node} {s t : State} (hback : back ≤ s.pos)
    (hp : Leads text p { s with pos := s.pos - back } t) :
    Leads text (.look false back p) s { t with pos := s.pos }
  | lookFailed {back : Nat} {p : Node} {s : State} : Leads text (.look true back p) s s
  | backref {index : Nat} {s t : State} (hrepeat : s.repeat? text index = some t) :
    Leads text (.backref index) s t
  | atomic {p : Node} {s t : State} (hp : Leads text p s t) : Leads text (.atomic p) s t
  | keep {s : State} : Leads text .keep s { s with start := s.pos }
  | searchStart {s : State} (horigin : s.pos ≤ s.origin) : Leads text .searchStart s s
  | groupSet {index : Nat} {s : State} (hset : s.hasMatched index = true) :
    Leads text (.groupSet index) s s
  | branchYes {p q r : Node} {s t u : State} (hp : Leads text p s t) (hq : Leads text q t u) :
    Leads text (.branch p q r) s u
  | branchNo {p q r : Node} {s t : State} (hr : Leads text r s t) : Leads text (.branch p q r) s t

variable {text : Array Char}

/-! ## Single steps -/

theorem step?_eq_some {set : CharSet} {s t : State} (h : s.step? text set = some t) :
    ∃ c, text[s.pos]? = some c ∧ set.contains c = true ∧ t = { s with pos := s.pos + 1 } := by
  unfold State.step? at h
  split at h
  · rename_i c hc
    split at h
    · rename_i hset
      cases h
      exact ⟨c, hc, hset, rfl⟩
    · cases h
  · cases h

theorem repeat?_eq_some {index : Nat} {s t : State} (h : s.repeat? text index = some t) :
    ∃ length, t = { s with pos := s.pos + length } := by
  unfold State.repeat? at h
  split at h
  · cases h
  · rename_i span _
    dsimp only at h
    split at h
    · cases h
      exact ⟨span.stop - span.first, rfl⟩
    · cases h

/-! ## Linear matching -/

/-- A way that leaves the reported start where it is. -/
def Passes (text : Array Char) (p : Node) (s t : State) : Prop :=
  Leads text p s t ∧ t.start = s.start

theorem mem_states_add {r : Reached} {s t : State} (h : t ∈ (r.add s).states) :
    t ∈ r.states ∨ t = s := by
  unfold Reached.add at h
  split at h
  · exact .inl h
  · exact (List.mem_cons.1 h).symm

theorem mem_states_foldl {f : Reached → State → Reached} {R : State → State → Prop}
    {states : List State}
    (hf : ∀ r, ∀ s ∈ states, ∀ t, t ∈ (f r s).states → t ∈ r.states ∨ R s t)
    {r : Reached} {t : State} (h : t ∈ (states.foldl f r).states) :
    t ∈ r.states ∨ ∃ s ∈ states, R s t := by
  induction states generalizing r with
  | nil => exact .inl h
  | cons s rest ih =>
    have hrest := ih (fun r s hs => hf r s (List.mem_cons_of_mem _ hs)) h
    rcases hrest with hr | ⟨s', hs', hR⟩
    · rcases hf r s List.mem_cons_self t hr with hr | hR
      · exact .inl hr
      · exact .inr ⟨s, List.mem_cons_self, hR⟩
    · exact .inr ⟨s', List.mem_cons_of_mem _ hs', hR⟩

theorem mem_of_mem_firstOfPlace {states : List State} {t : State}
    (h : t ∈ firstOfPlace states) : t ∈ states := by
  unfold firstOfPlace at h
  split at h
  · exact h
  · exact h
  · rw [List.mem_reverse] at h
    have hadd : ∀ r : Reached, ∀ s ∈ states, ∀ t, t ∈ (r.add s).states → t ∈ r.states ∨ s = t :=
      fun r s _ t ht => (mem_states_add ht).imp_right Eq.symm
    rcases mem_states_foldl hadd h with hnil | ⟨s, hs, rfl⟩
    · cases hnil
    · exact hs

section

variable {greedy : Bool} {p : Node} {body : State → List State}

/-- Whatever the rounds of a star reach was reached before or is led to from their start. -/
theorem passes_of_mem_rounds (hbody : ∀ s t, t ∈ body s → Passes text p s t) (fuel : Nat)
    {r : Reached} {s t : State} (h : t ∈ (rounds greedy body fuel r s).states) :
    t ∈ r.states ∨ Passes text (.star greedy p) s t := by
  have hdone : ∀ s, Passes text (.star greedy p) s s := fun s => ⟨.starDone, rfl⟩
  induction fuel generalizing r s t with
  | zero =>
    unfold rounds at h
    rcases mem_states_add h with hr | rfl
    · exact .inl hr
    · exact .inr (hdone t)
  | succ fuel ih =>
    have hround : ∀ r, ∀ u ∈ (body s).filter (s.pos < ·.pos), ∀ t,
        t ∈ (rounds greedy body fuel r u).states →
          t ∈ r.states ∨ Passes text (.star greedy p) s t := by
      intro r u hu t ht
      obtain ⟨hu, hpos⟩ := List.mem_filter.1 hu
      have hfirst := hbody s u hu
      refine (ih ht).imp_right fun hrest => ?_
      exact ⟨.starRound hfirst.1 (of_decide_eq_true hpos) hrest.1, hrest.2.trans hfirst.2⟩
    unfold rounds at h
    split at h
    · exact .inl h
    · dsimp only at h
      split at h
      · rcases List.mem_cons.1 h with rfl | h
        · exact .inr (hdone t)
        · rcases mem_states_foldl (R := fun _ t => Passes text (.star greedy p) s t) hround h with
            hr | ⟨_, _, hpasses⟩
          · exact .inl hr
          · exact .inr hpasses
      · rcases mem_states_foldl (R := fun _ t => Passes text (.star greedy p) s t) hround h with
          hr | ⟨_, _, hpasses⟩
        · rcases mem_states_add hr with hr | rfl
          · exact .inl hr
          · exact .inr (hdone t)
        · exact .inr hpasses

theorem passes_of_mem_starEnds (hbody : ∀ s t, t ∈ body s → Passes text p s t) {size : Nat}
    {states : List State} {t : State} (h : t ∈ starEnds size greedy body states) :
    ∃ s ∈ states, Passes text (.star greedy p) s t := by
  unfold starEnds at h
  rw [List.mem_reverse] at h
  have hrounds : ∀ r, ∀ s ∈ states, ∀ t,
      t ∈ (rounds greedy body (size - s.pos + 1) r s).states →
        t ∈ r.states ∨ Passes text (.star greedy p) s t :=
    fun r s _ t ht => passes_of_mem_rounds hbody _ ht
  rcases mem_states_foldl hrounds h with hnil | hpasses
  · cases hnil
  · exact hpasses

end

theorem passes_of_mem_charRun {greedy : Bool} {set : CharSet} (fuel : Nat) {s t : State}
    (h : t ∈ charRun text set fuel s) : Passes text (.star greedy (.chars set)) s t := by
  have hdone : ∀ s, Passes text (.star greedy (.chars set)) s s := fun s => ⟨.starDone, rfl⟩
  induction fuel generalizing s with
  | zero =>
    obtain rfl := List.mem_singleton.1 h
    exact hdone t
  | succ fuel ih =>
    unfold charRun at h
    split at h
    · rename_i u hu
      rcases List.mem_cons.1 h with rfl | h
      · exact hdone t
      · obtain ⟨_, _, _, rfl⟩ := step?_eq_some hu
        have hrest := ih h
        exact ⟨.starRound (.chars hu) (Nat.lt_succ_self _) hrest.1, hrest.2⟩
    · obtain rfl := List.mem_singleton.1 h
      exact hdone t

/-- Linear matching only leads where some way leads. -/
theorem passes_of_mem_ends {p : Node} {states : List State} {t : State}
    (h : t ∈ ends text p states) : ∃ s ∈ states, Passes text p s t := by
  induction p generalizing states t with
  | empty => exact ⟨t, h, .empty, rfl⟩
  | chars set =>
    obtain ⟨s, hs, hstep⟩ := List.mem_filterMap.1 h
    obtain ⟨_, _, _, rfl⟩ := step?_eq_some hstep
    exact ⟨s, hs, .chars hstep, rfl⟩
  | assertion a =>
    obtain ⟨ht, hholds⟩ := List.mem_filter.1 h
    exact ⟨t, ht, .assertion hholds, rfl⟩
  | seq p q ihp ihq =>
    obtain ⟨u, hu, hq, hstart⟩ := ihq h
    obtain ⟨s, hs, hp, hstart'⟩ := ihp hu
    exact ⟨s, hs, .seq hp hq, hstart.trans hstart'⟩
  | alt p q ihp ihq =>
    obtain ⟨s, hs, ht⟩ := List.mem_flatMap.1 (mem_of_mem_firstOfPlace h)
    refine ⟨s, hs, ?_⟩
    rcases List.mem_append.1 ht with ht | ht
    · have hp : Passes text p s t := by simpa using ihp ht
      exact ⟨.altLeft hp.1, hp.2⟩
    · have hq : Passes text q s t := by simpa using ihq ht
      exact ⟨.altRight hq.1, hq.2⟩
  | star greedy p ih =>
    have hbody : ∀ s t, t ∈ ends text p [s] → Passes text p s t := fun s t ht => by
      simpa using ih ht
    unfold ends at h
    split at h
    · rename_i set s
      refine ⟨s, List.mem_singleton.2 rfl, passes_of_mem_charRun (text.size - s.pos) ?_⟩
      unfold charStarEnds at h
      cases greedy with
      | true => exact List.mem_reverse.1 h
      | false => exact h
    · exact passes_of_mem_starEnds hbody h
  | plus greedy p ih =>
    have hbody : ∀ s t, t ∈ ends text p [s] → Passes text p s t := fun s t ht => by
      simpa using ih ht
    obtain ⟨s, hs, ht⟩ := List.mem_flatMap.1 (mem_of_mem_firstOfPlace h)
    obtain ⟨u, hu, ht⟩ := List.mem_flatMap.1 ht
    have hfirst := hbody s u hu
    refine ⟨s, hs, ?_⟩
    split at ht
    · rename_i hpos
      have hrest : Passes text (.star greedy p) u t := by
        simpa using passes_of_mem_starEnds hbody ht
      exact ⟨.plusRounds hfirst.1 hpos hrest.1, hrest.2.trans hfirst.2⟩
    · rename_i hpos
      obtain rfl := List.mem_singleton.1 ht
      exact ⟨.plusDone hfirst.1 hpos, hfirst.2⟩
  | group index p ih =>
    obtain ⟨s, hs, ht⟩ := List.mem_flatMap.1 (mem_of_mem_firstOfPlace h)
    obtain ⟨u, hu, rfl⟩ := List.mem_map.1 ht
    have hp : Passes text p s u := by simpa using ih hu
    exact ⟨s, hs, .group hp.1, hp.2⟩
  | look _ _ _ => cases h
  | backref _ => cases h
  | atomic _ => cases h
  | keep => cases h
  | searchStart => cases h
  | groupSet _ => cases h
  | branch _ _ _ => cases h

theorem passes_of_firstEnd {p : Node} {s t : State} (h : firstEnd text p s = some t) :
    Passes text p s t := by
  simpa using passes_of_mem_ends (List.mem_of_mem_head? h)

/-! ## Backtracking -/

theorem goBack_ne_found {left left' : Nat} {t : State} : goBack left ≠ .found t left' := by
  cases left <;> simp [goBack]

theorem orElse_eq_found {v : Verdict} {other : Nat → Verdict} {t : State} {left' : Nat}
    (h : v.orElse other = .found t left') :
    v = .found t left' ∨ ∃ left, other left = .found t left' := by
  cases v with
  | found u left => exact .inl h
  | failed left => exact .inr ⟨left, h⟩
  | gaveUp => cases h

theorem resume_eq_found {v : Verdict} {found : Following} {failed : Nat → Verdict} {t : State}
    {left' : Nat} (h : v.resume found failed = .found t left') :
    (∃ s left, v = .found s left ∧ found s left = .found t left') ∨
      ∃ left, failed left = .found t left' := by
  cases v with
  | found s left => exact .inl ⟨s, left, rfl, h⟩
  | failed left => exact .inr ⟨left, h⟩
  | gaveUp => cases h

/-- What a search with a body finds is found after the body, at a state to which it leads. -/
abbrev Sound (text : Array Char) (p : Node) (search : State → Nat → Following → Verdict) : Prop :=
  ∀ {s : State} {left : Nat} {k : Following} {u : State} {left' : Nat},
    search s left k = .found u left' →
      ∃ t leftThere, Leads text p s t ∧ k t leftThere = .found u left'

theorem sound_runRounds {greedy : Bool} {p : Node} {body : State → Nat → Following → Verdict}
    (hbody : Sound text p body) (fuel : Nat) :
    Sound text (.star greedy p) (runRounds greedy body fuel) := by
  induction fuel with
  | zero => exact fun h => ⟨_, _, .starDone, h⟩
  | succ fuel ih =>
    intro s left k u left' h
    have hround : ∀ left, (body s left fun t left =>
        if s.pos < t.pos then runRounds greedy body fuel t left k else goBack left) =
          .found u left' →
        ∃ t leftThere, Leads text (.star greedy p) s t ∧ k t leftThere = .found u left' := by
      intro left h
      obtain ⟨t, leftThere, hp, h⟩ := hbody h
      split at h
      · rename_i hpos
        obtain ⟨t', leftThere', hrest, hk⟩ := ih h
        exact ⟨t', leftThere', .starRound hp hpos hrest, hk⟩
      · exact absurd h goBack_ne_found
    unfold runRounds at h
    dsimp only at h
    split at h
    · rcases orElse_eq_found h with h | ⟨leftThere, h⟩
      · exact hround _ h
      · exact ⟨s, leftThere, .starDone, h⟩
    · rcases orElse_eq_found h with h | ⟨_, h⟩
      · exact ⟨s, left, .starDone, h⟩
      · exact hround _ h

/-- Some way leads to what a search of its own finds. -/
theorem leads_of_run_found {p : Node} (hrun : Sound text p (run text p)) {s t : State}
    {left left' : Nat} (h : run text p s left .found = .found t left') : Leads text p s t := by
  obtain ⟨u, leftThere, hleads, hu⟩ := hrun h
  cases hu
  exact hleads

/-- Backtracking only leads where some way leads. -/
theorem sound_run (p : Node) : Sound text p (run text p) := by
  induction p with
  | empty => exact fun h => ⟨_, _, .empty, h⟩
  | chars set =>
    intro s left k u left' h
    unfold run at h
    split at h
    · rename_i t hstep
      exact ⟨t, left, .chars hstep, h⟩
    · exact absurd h goBack_ne_found
  | assertion a =>
    intro s left k u left' h
    unfold run at h
    split at h
    · rename_i hholds
      exact ⟨s, left, .assertion hholds, h⟩
    · exact absurd h goBack_ne_found
  | seq p q ihp ihq =>
    intro s left k u left' h
    obtain ⟨t, leftThere, hp, h⟩ := ihp h
    obtain ⟨t', leftThere', hq, hk⟩ := ihq h
    exact ⟨t', leftThere', .seq hp hq, hk⟩
  | alt p q ihp ihq =>
    intro s left k u left' h
    rcases orElse_eq_found h with h | ⟨_, h⟩
    · obtain ⟨t, leftThere, hp, hk⟩ := ihp h
      exact ⟨t, leftThere, .altLeft hp, hk⟩
    · obtain ⟨t, leftThere, hq, hk⟩ := ihq h
      exact ⟨t, leftThere, .altRight hq, hk⟩
  | star greedy p ih => exact fun h => sound_runRounds ih _ h
  | plus greedy p ih =>
    intro s left k u left' h
    obtain ⟨t, leftThere, hp, h⟩ := ih h
    split at h
    · rename_i hpos
      obtain ⟨t', leftThere', hrest, hk⟩ := sound_runRounds ih _ h
      exact ⟨t', leftThere', .plusRounds hp hpos hrest, hk⟩
    · rename_i hpos
      exact ⟨t, leftThere, .plusDone hp hpos, h⟩
  | group index p ih =>
    intro s left k u left' h
    obtain ⟨t, leftThere, hp, hk⟩ := ih h
    exact ⟨_, leftThere, .group hp, hk⟩
  | look negative back p ih =>
    intro s left k u left' h
    cases negative with
    | false =>
      unfold run at h
      split at h
      · exact absurd h goBack_ne_found
      · rename_i hback
        obtain ⟨t, leftThere, hp, hk⟩ := ih h
        exact ⟨_, leftThere, .look (Nat.le_of_not_lt hback) hp, hk⟩
    | true =>
      unfold run at h
      rcases resume_eq_found h with ⟨_, _, _, h⟩ | ⟨leftThere, h⟩
      · exact absurd h goBack_ne_found
      · exact ⟨s, leftThere, .lookFailed, h⟩
  | backref index =>
    intro s left k u left' h
    unfold run at h
    split at h
    · rename_i t hrepeat
      exact ⟨t, left, .backref hrepeat, h⟩
    · exact absurd h goBack_ne_found
  | atomic p ih =>
    intro s left k u left' h
    unfold run at h
    split at h
    · split at h
      · rename_i t hend
        exact ⟨t, left, .atomic (passes_of_firstEnd hend).1, h⟩
      · exact absurd h goBack_ne_found
    · rcases resume_eq_found h with ⟨t, leftThere, hfound, h⟩ | ⟨_, h⟩
      · exact ⟨t, leftThere, .atomic (leads_of_run_found ih hfound), h⟩
      · cases h
  | keep => exact fun h => ⟨_, _, .keep, h⟩
  | searchStart =>
    intro s left k u left' h
    unfold run at h
    split at h
    · rename_i horigin
      exact ⟨s, left, .searchStart horigin, h⟩
    · exact absurd h goBack_ne_found
  | groupSet index =>
    intro s left k u left' h
    unfold run at h
    split at h
    · rename_i hset
      exact ⟨s, left, .groupSet hset, h⟩
    · exact absurd h goBack_ne_found
  | branch condition yes no ihc ihy ihn =>
    intro s left k u left' h
    unfold run at h
    rcases resume_eq_found h with ⟨t, leftThere, hfound, h⟩ | ⟨_, h⟩
    · obtain ⟨t', leftThere', hyes, hk⟩ := ihy h
      exact ⟨t', leftThere', .branchYes (leads_of_run_found ihc hfound) hyes, hk⟩
    · obtain ⟨t', leftThere', hno, hk⟩ := ihn h
      exact ⟨t', leftThere', .branchNo hno, hk⟩

/-! ## Searches -/

namespace Matcher

variable {m : Matcher}

variable {origin place left left' tried : Nat} {s : State}

/-- What is found at a place is led to from there. -/
theorem leads_of_attempt (h : m.attempt text origin place left = .found s left') :
    Leads text m.program.node (.init place origin) s := by
  unfold attempt at h
  split at h
  · split at h
    · rename_i hend
      cases h
      exact (passes_of_firstEnd hend).1
    · cases h
  · exact leads_of_run_found (sound_run _) h

/-- A linear match is reported to start where it was tried. -/
theorem start_of_attempt (hm : m.engine = .linear)
    (h : m.attempt text origin place left = .found s left') : s.start = place := by
  have hlinear : m.isLinear = true := by simp [isLinear, hm]
  unfold attempt at h
  rw [if_pos hlinear] at h
  split at h
  · rename_i hend
    cases h
    exact (passes_of_firstEnd hend).2
  · cases h

theorem searchFrom_found {count : Nat}
    (h : m.searchFrom text origin left place count = .found tried s) :
    place ≤ tried ∧ ∃ left left', m.attempt text origin tried left = .found s left' := by
  induction count generalizing place left with
  | zero => cases h
  | succ count ih =>
    unfold searchFrom at h
    split at h
    · rename_i left' hattempt
      cases h
      exact ⟨Nat.le_refl _, left, left', hattempt⟩
    · obtain ⟨hle, hfound⟩ := ih h
      exact ⟨Nat.le_of_succ_le hle, hfound⟩
    · cases h

/-- What a search finds is found at some place from its start on. -/
theorem search_found (h : m.search text place = .found tried s) :
    place ≤ tried ∧ ∃ left left', m.attempt text place tried left = .found s left' :=
  searchFrom_found h

theorem leads_of_search (h : m.search text place = .found tried s) :
    Leads text m.program.node (.init tried place) s := by
  obtain ⟨_, _, _, hattempt⟩ := search_found h
  exact leads_of_attempt hattempt

theorem leads_of_scanFrom {best : Option State} {count : Nat}
    (hbest : ∀ b, best = some b → ∃ origin tried, Leads text m.program.node (.init tried origin) b)
    (h : m.scanFrom text best place count = some s) :
    ∃ origin tried, Leads text m.program.node (.init tried origin) s := by
  induction count generalizing best place with
  | zero => exact hbest s h
  | succ count ih =>
    unfold scanFrom at h
    split at h
    · cases h
    · exact hbest s h
    · rename_i tried found hfound
      refine ih ?_ h
      intro b hb
      split at hb
      · unfold rightmost at hb
        split at hb
        · cases hb
          exact ⟨place, tried, leads_of_search hfound⟩
        · split at hb
          · cases hb
            exact ⟨place, tried, leads_of_search hfound⟩
          · exact hbest b hb
      · exact hbest b hb

/-- The match that is taken is led to from the place where it was tried. -/
theorem leads_of_match? (h : m.match? text = some s) :
    ∃ origin tried, Leads text m.program.node (.init tried origin) s := by
  unfold match? at h
  split at h
  · cases hsearch : m.search text 0 with
    | found tried t =>
      rw [hsearch] at h
      cases h
      exact ⟨0, tried, leads_of_search hsearch⟩
    | nothing => simp [hsearch, Landing.state?] at h
    | gaveUp => simp [hsearch, Landing.state?] at h
  · exact leads_of_scanFrom (fun _ hnone => by cases hnone) h

end Matcher

/-! ## Places -/

/-- No way leads backwards. -/
theorem Leads.pos_le {p : Node} {s t : State} (h : Leads text p s t) : s.pos ≤ t.pos := by
  induction h with
  | empty => exact Nat.le_refl _
  | chars hstep =>
    obtain ⟨_, _, _, rfl⟩ := step?_eq_some hstep
    exact Nat.le_succ _
  | assertion _ => exact Nat.le_refl _
  | seq _ _ ihp ihq => exact Nat.le_trans ihp ihq
  | altLeft _ ih => exact ih
  | altRight _ ih => exact ih
  | starDone => exact Nat.le_refl _
  | starRound _ _ _ ihp ihrest => exact Nat.le_trans ihp ihrest
  | plusDone _ _ ih => exact ih
  | plusRounds _ _ _ ihp ihrest => exact Nat.le_trans ihp ihrest
  | group _ ih => exact ih
  | look _ _ _ => exact Nat.le_refl _
  | lookFailed => exact Nat.le_refl _
  | backref hrepeat =>
    obtain ⟨_, rfl⟩ := repeat?_eq_some hrepeat
    exact Nat.le_add_right _ _
  | atomic _ ih => exact ih
  | keep => exact Nat.le_refl _
  | searchStart _ => exact Nat.le_refl _
  | groupSet _ => exact Nat.le_refl _
  | branchYes _ _ ihp ihq => exact Nat.le_trans ihp ihq
  | branchNo _ ih => exact ih

end Banknote.Pattern
