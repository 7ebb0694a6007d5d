import Banknote.Proofs.Pattern.Linear

/-!
# Backtracking finds the preferred way

A search that goes back is limited, so it may give up.  `Priced` says what that depends on: the
search has a price and an outcome, comes to the outcome whenever the limit covers the price, and
otherwise gives up.  The limit therefore never changes what is found.

* Prices.  `Priced.resume` adds the prices of two searches of which one follows the other.
* Patterns.  `follows_run` goes along `run` through the pattern.  What has to follow the pattern is
  kept general: the outcome is the one to which the first of all ways leads from which what follows
  finds something.
-/

namespace Banknote.Pattern

variable {text : Array Char}

/-! ## Prices -/

/-- The verdict of a search that comes to its outcome. -/
def Verdict.ofOutcome : Option State → Nat → Verdict
  | some s, left => .found s left
  | none, left => .failed left

/-- A search comes to an outcome if one may go back often enough, and otherwise gives up. -/
def Priced (search : Nat → Verdict) (outcome : Option State) : Prop :=
  ∃ price, ∀ left,
    search left = if price ≤ left then .ofOutcome outcome (left - price) else .gaveUp

theorem priced_ofOutcome (outcome : Option State) : Priced (.ofOutcome outcome) outcome :=
  ⟨0, fun left => (if_pos (Nat.zero_le left)).symm⟩

theorem priced_goBack : Priced goBack none := by
  refine ⟨1, fun left => ?_⟩
  cases left with
  | zero => rfl
  | succ left => rw [if_pos (Nat.le_add_left 1 left)]; rfl

theorem Priced.resume {search : Nat → Verdict} {outcome outcome' : Option State}
    (h : Priced search outcome) {found : Following} {failed : Nat → Verdict}
    (hnext : Priced (fun left => (Verdict.ofOutcome outcome left).resume found failed) outcome') :
    Priced (fun left => (search left).resume found failed) outcome' := by
  obtain ⟨price, hprice⟩ := h
  obtain ⟨price', hprice'⟩ := hnext
  refine ⟨price + price', fun left => ?_⟩
  dsimp only at hprice' ⊢
  rw [hprice]
  by_cases hle : price ≤ left
  · rw [if_pos hle, hprice']
    by_cases hle' : price' ≤ left - price
    · rw [if_pos hle', if_pos (by omega), Nat.sub_sub]
    · rw [if_neg hle', if_neg (by omega)]
  · rw [if_neg hle, if_neg (by omega)]
    rfl

theorem orElse_eq_resume (verdict : Verdict) (other : Nat → Verdict) :
    verdict.orElse other = verdict.resume .found other := by
  cases verdict <;> rfl

theorem Priced.orElse {search other : Nat → Verdict} {outcome outcome' : Option State}
    (h : Priced search outcome) (hother : Priced other outcome') :
    Priced (fun left => (search left).orElse other) (outcome.or outcome') := by
  simp only [orElse_eq_resume]
  refine h.resume ?_
  cases outcome with
  | some s => exact priced_ofOutcome (some s)
  | none => exact hother

/-! ## The first way from which something is found -/

section

variable {α β : Type} {f : β → Option State}

theorem findSome?_flatMap (g : α → List β) (l : List α) :
    (l.flatMap g).findSome? f = l.findSome? fun a => (g a).findSome? f := by
  induction l with
  | nil => rfl
  | cons a rest ih =>
    rw [List.flatMap_cons, List.findSome?_append, List.findSome?_cons, ih]
    cases (g a).findSome? f <;> rfl

theorem findSome?_filter (q : β → Bool) (l : List β) :
    (l.filter q).findSome? f = l.findSome? fun b => if q b then f b else none := by
  induction l with
  | nil => rfl
  | cons b rest ih =>
    rw [List.filter_cons, List.findSome?_cons, ← ih]
    split
    · rw [List.findSome?_cons]
    · rfl

theorem findSome?_some (states : List State) : states.findSome? some = states.head? := by
  cases states <;> rfl

end

/-! ## Patterns -/

/-- A search with a body comes to the outcome of the first way through the body from which what
follows comes to one. -/
def Follows (body : State → List State) (search : State → Nat → Following → Verdict) : Prop :=
  ∀ (k : Following) (outcome : State → Option State), (∀ t, Priced (k t) (outcome t)) →
    ∀ s, Priced (fun left => search s left k) ((body s).findSome? outcome)

theorem follows_singleton (f : State → State) :
    Follows (fun s => [f s]) fun s left k => k (f s) left := by
  intro k outcome hk s
  rw [List.findSome?_singleton]
  exact hk (f s)

theorem follows_toList (step? : State → Option State) :
    Follows (fun s => (step? s).toList) fun s left k =>
      match step? s with
      | some t => k t left
      | none => goBack left := by
  intro k outcome hk s
  dsimp only
  cases step? s with
  | some t =>
    rw [Option.toList_some, List.findSome?_singleton]
    exact hk t
  | none => exact priced_goBack

section

variable {greedy : Bool} {body : State → List State} {search : State → Nat → Following → Verdict}

theorem follows_runRounds (hbody : Follows body search) (fuel : Nat) :
    Follows (starWays greedy body fuel) (runRounds greedy search fuel) := by
  induction fuel with
  | zero => exact follows_singleton id
  | succ fuel ih =>
    intro k outcome hk s
    have hround : ∀ t, Priced (fun left =>
        if s.pos < t.pos then runRounds greedy search fuel t left k else goBack left)
        (if decide (s.pos < t.pos) then (starWays greedy body fuel t).findSome? outcome
          else none) := by
      intro t
      by_cases hpos : s.pos < t.pos
      · simp only [hpos, decide_true, if_true]
        exact ih k outcome hk t
      · simp only [hpos, decide_false, if_false, Bool.false_eq_true]
        exact priced_goBack
    have hmore := hbody _ _ hround s
    rw [← findSome?_filter, ← findSome?_flatMap] at hmore
    have hdone := follows_singleton id k outcome hk s
    cases greedy with
    | true =>
      have hboth := hmore.orElse hdone
      rw [← List.findSome?_append] at hboth
      exact hboth
    | false =>
      have hboth := hdone.orElse hmore
      rw [← List.findSome?_append] at hboth
      exact hboth

theorem follows_laterRounds (hbody : Follows body search) (pos : Nat) :
    Follows (fun t =>
        if pos < t.pos then starWays greedy body (text.size - t.pos) t else [t])
      fun t left k =>
        if pos < t.pos then runRounds greedy search (text.size - t.pos) t left k
        else k t left := by
  intro k outcome hk t
  dsimp only
  by_cases hpos : pos < t.pos
  · simp only [if_pos hpos]
    exact follows_runRounds hbody _ k outcome hk t
  · simp only [if_neg hpos]
    exact follows_singleton id k outcome hk t

end

/-- A search of its own comes to the first way. -/
theorem priced_run_found {p : Node} (hrun : Follows (ways text p) (run text p)) (s : State) :
    Priced (fun left => run text p s left .found) (ways text p s).head? := by
  rw [← findSome?_some]
  exact hrun _ _ (fun t => priced_ofOutcome (some t)) s

/-- So does linear matching, which never goes back. -/
theorem priced_firstEnd {p : Node} (hp : p.isPlain = true) (s : State) :
    Priced (fun left =>
        match firstEnd text p s with
        | some t => .found t left
        | none => .failed left)
      (ways text p s).head? := by
  simp only [firstEnd_eq_head?_ways (Node.isRegular_of_isPlain hp)]
  cases (ways text p s).head? with
  | some t => exact priced_ofOutcome (some t)
  | none => exact priced_ofOutcome none

theorem follows_ite (q : State → Prop) [DecidablePred q] :
    Follows (fun s => if q s then [s] else []) fun s left k =>
      if q s then k s left else goBack left := by
  intro k outcome hk s
  dsimp only
  by_cases hq : q s
  · simp only [if_pos hq]
    exact follows_singleton id k outcome hk s
  · simp only [if_neg hq]
    exact priced_goBack

/-- Backtracking comes to the outcome of the first way through the pattern from which what follows
comes to one. -/
theorem follows_run (p : Node) : Follows (ways text p) (run text p) := by
  induction p with
  | empty => exact follows_singleton id
  | chars set => exact follows_toList (State.step? text set)
  | assertion a => exact follows_ite fun s => a.holds text s.pos = true
  | seq p q ihp ihq =>
    intro k outcome hk s
    rw [ways, findSome?_flatMap]
    exact ihp _ _ (ihq k outcome hk) s
  | alt p q ihp ihq =>
    intro k outcome hk s
    rw [ways, List.findSome?_append]
    exact (ihp k outcome hk s).orElse (ihq k outcome hk s)
  | star greedy p ih => exact fun k outcome hk s => follows_runRounds ih _ k outcome hk s
  | plus greedy p ih =>
    intro k outcome hk s
    rw [ways, findSome?_flatMap]
    exact ih _ _ (follows_laterRounds ih s.pos k outcome hk) s
  | group index p ih =>
    intro k outcome hk s
    rw [ways, List.findSome?_map]
    exact ih _ _ (fun t => hk _) s
  | look negative back p ih =>
    intro k outcome hk s
    rw [ways]
    cases negative with
    | false =>
      unfold run waysBack
      by_cases hback : s.pos < back
      · simp only [if_pos hback]
        exact priced_goBack
      · simp only [if_neg hback, Bool.false_eq_true, if_false, List.findSome?_map]
        exact ih _ _ (fun t => hk _) _
    | true =>
      have hseen : Priced (fun left =>
            if s.pos < back then goBack left
            else run text p { s with pos := s.pos - back } left .found)
          (waysBack back (ways text p) s).head? := by
        unfold waysBack
        by_cases hback : s.pos < back
        · simp only [if_pos hback]
          exact priced_goBack
        · simp only [if_neg hback]
          exact priced_run_found ih _
      unfold run
      refine hseen.resume ?_
      cases waysBack back (ways text p) s with
      | nil => exact follows_singleton id k outcome hk s
      | cons t rest => exact priced_goBack
  | backref index => exact follows_toList (State.repeat? text index)
  | atomic p ih =>
    intro k outcome hk s
    unfold run ways
    by_cases hp : p.isPlain = true
    · simp only [if_pos hp, firstEnd_eq_head?_ways (Node.isRegular_of_isPlain hp)]
      exact follows_toList (fun s => (ways text p s).head?) k outcome hk s
    · simp only [if_neg hp]
      refine (priced_run_found ih s).resume ?_
      cases (ways text p s).head? with
      | some t => exact follows_singleton id k outcome hk t
      | none => exact priced_ofOutcome none
  | keep => exact follows_singleton fun s => { s with start := s.pos }
  | searchStart => exact follows_ite fun s => s.pos ≤ s.origin
  | groupSet index => exact follows_ite fun s => s.hasMatched index = true
  | branch condition yes no ihc ihy ihn =>
    intro k outcome hk s
    unfold run ways
    refine (priced_run_found ihc s).resume ?_
    cases (ways text condition s).head? with
    | some t => exact ihy k outcome hk t
    | none => exact ihn k outcome hk s

end Banknote.Pattern
