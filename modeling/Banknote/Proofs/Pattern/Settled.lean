import Banknote.Proofs.Pattern.Reading
import Banknote.Proofs.Pattern.Ways

/-!
# Parts that need to be matched in one way only

The backtracking engine matches some parts of a pattern in the first way only.  What makes a second
way useless is said here, by what the rest of the pattern can tell of a state: its place, its
reported start, where the search started, and what those groups have matched that the pattern refers
to.

* What is seen.  `State.restrict` leaves out of a state what no reference reads.  `Respects`: the
  ways from states that look alike look alike, in their order.  This holds of a pattern that refers
  to nothing else (`inherited_respects`).
* Self-contained parts.  `inherited_steps`: all that is seen of a way through a self-contained part
  is where it leads.
* Widths.  `Built.advances`: all ways through a part of a fixed width lead equally far.
* Settled parts.  `Built.restrict_eq_of_isSettled` puts the two together: all ways through a part that
  is self-contained and has a fixed width look alike.
-/

namespace Banknote.Pattern

variable {text : Array Char} {refs : List Nat}

/-! ## What is seen of a state -/

namespace State

/-- A state without what the groups have matched that are not referred to. -/
def restrict (refs : List Nat) (s : State) : State :=
  { s with marks := s.marks.filter (·.1 ∈ refs) }

@[simp] theorem restrict_pos (s : State) : (s.restrict refs).pos = s.pos := rfl

@[simp] theorem restrict_start (s : State) : (s.restrict refs).start = s.start := rfl

@[simp] theorem restrict_origin (s : State) : (s.restrict refs).origin = s.origin := rfl

theorem restrict_eq_iff {s s' : State} :
    s.restrict refs = s'.restrict refs ↔ s.pos = s'.pos ∧ s.start = s'.start ∧
      s.origin = s'.origin ∧ s.marks.filter (·.1 ∈ refs) = s'.marks.filter (·.1 ∈ refs) := by
  rw [restrict, restrict, State.mk.injEq]

theorem pos_eq_of_restrict_eq {s s' : State} (h : s.restrict refs = s'.restrict refs) :
    s.pos = s'.pos := (restrict_eq_iff.1 h).1

/-- A group that is not referred to may be set unseen. -/
theorem restrict_mark_of_not_mem {index : Nat} (h : index ∉ refs) (s : State) (span : Span) :
    (s.mark index span).restrict refs = s.restrict refs := by
  refine restrict_eq_iff.2 ⟨rfl, rfl, rfl, ?_⟩
  rw [mark, List.filter_cons_of_neg (by simpa using h), List.filter_filter]
  refine List.filter_congr fun mark _ => ?_
  by_cases hmark : mark.1 = index
  · simp [hmark, h]
  · simp [hmark]

theorem restrict_mark_of_mem {index : Nat} (h : index ∈ refs) (s : State) (span : Span) :
    (s.mark index span).restrict refs = (s.restrict refs).mark index span := by
  have hcomm : (s.marks.filter (·.1 != index)).filter (·.1 ∈ refs) =
      (s.marks.filter (·.1 ∈ refs)).filter (·.1 != index) := by
    rw [List.filter_filter, List.filter_filter]
    exact List.filter_congr fun mark _ => Bool.and_comm _ _
  rw [mark, restrict, List.filter_cons_of_pos (by simpa using h), hcomm]
  rfl

theorem restrict_mark_congr {s s' : State} (h : s.restrict refs = s'.restrict refs) (index : Nat)
    (span : Span) : (s.mark index span).restrict refs = (s'.mark index span).restrict refs := by
  by_cases hindex : index ∈ refs
  · rw [restrict_mark_of_mem hindex, restrict_mark_of_mem hindex, h]
  · rw [restrict_mark_of_not_mem hindex, restrict_mark_of_not_mem hindex, h]

theorem lookup_filter {index : Nat} (h : index ∈ refs) (marks : List (Nat × Span)) :
    (marks.filter (·.1 ∈ refs)).lookup index = marks.lookup index := by
  induction marks with
  | nil => rfl
  | cons mark marks ih =>
    obtain ⟨other, span⟩ := mark
    by_cases hmem : other ∈ refs
    · rw [List.filter_cons_of_pos (by simpa using hmem), List.lookup_cons, List.lookup_cons, ih]
    · have hne : (index == other) = false := by
        rw [beq_eq_false_iff_ne]
        rintro rfl
        exact hmem h
      rw [List.filter_cons_of_neg (by simpa using hmem), ih, List.lookup_cons, hne]

theorem hasMatched_restrict {index : Nat} (h : index ∈ refs) (s : State) :
    (s.restrict refs).hasMatched index = s.hasMatched index :=
  congrArg Option.isSome (lookup_filter h _)

theorem step?_restrict (s : State) (set : CharSet) :
    (s.step? text set).map (restrict refs) = (s.restrict refs).step? text set := by
  simp only [step?, restrict_pos]
  cases text[s.pos]? with
  | none => rfl
  | some c =>
    dsimp only
    split <;> rfl

theorem repeat?_restrict {index : Nat} (h : index ∈ refs) (s : State) :
    (s.repeat? text index).map (restrict refs) = (s.restrict refs).repeat? text index := by
  have hlookup : (s.restrict refs).marks.lookup index = s.marks.lookup index := lookup_filter h _
  simp only [repeat?, hlookup, restrict_pos]
  cases s.marks.lookup index with
  | none => rfl
  | some span => exact apply_ite _ _ _ _

end State

open State (restrict restrict_mark_congr)

/-- The ways from states that look alike look alike, and come in the same order. -/
def Respects (refs : List Nat) (body : State → List State) : Prop :=
  ∀ s s' : State, s.restrict refs = s'.restrict refs →
    (body s).map (restrict refs) = (body s').map (restrict refs)

theorem map_toList (o : Option State) :
    o.toList.map (restrict refs) = (o.map (restrict refs)).toList := by
  cases o <;> rfl

namespace Respects

variable {f g : State → List State}

theorem singleton {step : State → State}
    (hstep : ∀ s s' : State, s.restrict refs = s'.restrict refs →
      (step s).restrict refs = (step s').restrict refs) : Respects refs fun s => [step s] := by
  intro s s' h
  rw [List.map_singleton, List.map_singleton, hstep s s' h]

theorem toList {step? : State → Option State}
    (hstep : ∀ s : State, (step? s).map (restrict refs) = step? (s.restrict refs)) :
    Respects refs fun s => (step? s).toList := by
  intro s s' h
  rw [map_toList, map_toList, hstep, hstep, h]

theorem nil : Respects refs fun _ => [] := fun _ _ _ => rfl

/-- A condition on what is seen of a state. -/
theorem ite (hf : Respects refs f) (hg : Respects refs g) (q : State → Prop) [DecidablePred q]
    (hq : ∀ s : State, q (s.restrict refs) = q s) :
    Respects refs fun s => if q s then f s else g s := by
  intro s s' h
  have hsame : q s = q s' := by rw [← hq s, h, hq s']
  dsimp only
  simp only [hsame]
  split
  · exact hf s s' h
  · exact hg s s' h

theorem append (hf : Respects refs f) (hg : Respects refs g) :
    Respects refs fun s => f s ++ g s := by
  intro s s' h
  rw [List.map_append, List.map_append, hf s s' h, hg s s' h]

/-- Ways go on alike from lists that look alike. -/
theorem map_flatMap (hg : Respects refs g) {states states' : List State}
    (h : states.map (restrict refs) = states'.map (restrict refs)) :
    (states.flatMap g).map (restrict refs) = (states'.flatMap g).map (restrict refs) := by
  induction states generalizing states' with
  | nil => rw [List.map_eq_nil_iff.1 h.symm]
  | cons s rest ih =>
    cases states' with
    | nil => cases h
    | cons s' rest' =>
      obtain ⟨hs, hrest⟩ := List.cons.inj h
      rw [List.flatMap_cons, List.flatMap_cons, List.map_append, List.map_append, hg s s' hs,
        ih hrest]

theorem flatMap (hf : Respects refs f) (hg : Respects refs g) :
    Respects refs fun s => (f s).flatMap g :=
  fun s s' h => hg.map_flatMap (hf s s' h)

/-- The first ways look alike. -/
theorem head? (hf : Respects refs f) {s s' : State} (h : s.restrict refs = s'.restrict refs) :
    (f s).head?.map (restrict refs) = (f s').head?.map (restrict refs) := by
  rw [← List.head?_map, ← List.head?_map, hf s s' h]

theorem filter_pos (hf : Respects refs f) {s s' : State} (h : s.restrict refs = s'.restrict refs) :
    ((f s).filter (s.pos < ·.pos)).map (restrict refs) =
      ((f s').filter (s'.pos < ·.pos)).map (restrict refs) := by
  have hkept : ∀ states : List State, ∀ pos, (states.filter (pos < ·.pos)).map (restrict refs) =
      (states.map (restrict refs)).filter (pos < ·.pos) := fun _ _ => by
    rw [List.filter_map]
    rfl
  rw [hkept, hkept, hf s s' h, State.pos_eq_of_restrict_eq h]

theorem starWays (hf : Respects refs f) (greedy : Bool) (fuel : Nat) :
    Respects refs (starWays greedy f fuel) := by
  induction fuel with
  | zero => exact singleton fun _ _ h => h
  | succ fuel ih =>
    intro s s' h
    have hmore := ih.map_flatMap (hf.filter_pos h)
    cases greedy with
    | true =>
      simp only [Banknote.Pattern.starWays, if_true, List.map_append, List.map_singleton, hmore, h]
    | false =>
      simp only [Banknote.Pattern.starWays, Bool.false_eq_true, if_false, List.map_cons, hmore, h]

theorem waysBack (hf : Respects refs f) (back : Nat) : Respects refs (waysBack back f) := by
  intro s s' h
  obtain ⟨hpos, hseen⟩ := State.restrict_eq_iff.1 h
  have hback : ({ s with pos := s.pos - back } : State).restrict refs =
      ({ s' with pos := s'.pos - back } : State).restrict refs :=
    State.restrict_eq_iff.2 ⟨congrArg (· - back) hpos, hseen⟩
  unfold Banknote.Pattern.waysBack
  rw [hpos]
  split
  · rfl
  · rw [← hpos]
    exact hf _ _ (hpos ▸ hback)

theorem star (hf : Respects refs f) (greedy : Bool) :
    Respects refs fun s => Banknote.Pattern.starWays greedy f (text.size - s.pos) s := by
  intro s s' h
  dsimp only
  rw [State.pos_eq_of_restrict_eq h]
  exact hf.starWays greedy _ s s' h

end Respects

/-- The ways through a pattern respect what its references read. -/
theorem inherited_respects (engine : Engine) (features : Feature → Prop) (sets : Nat → Prop) :
    Node.Inherited engine features sets (· ∈ refs) fun p => Respects refs (ways text p) where
  empty := .singleton fun _ _ h => h
  chars set := .toList fun s => State.step?_restrict s set
  assertion a := Respects.ite (.singleton fun _ _ h => h) .nil
    (fun s => a.holds text s.pos = true) fun _ => rfl
  seq hp hq := hp.flatMap hq
  alt hp hq := hp.append hq
  star greedy _ hp := hp.star greedy
  plus greedy p hp := by
    intro s s' h
    -- What follows the first round depends on where it started, which is the same place twice.
    have hlater : Respects refs fun t =>
        if s.pos < t.pos then starWays greedy (ways text p) (text.size - t.pos) t else [t] :=
      (hp.star greedy).ite (.singleton fun _ _ h => h) (fun t => s.pos < t.pos) fun _ => rfl
    have hplus := hlater.map_flatMap (hp s s' h)
    rw [State.pos_eq_of_restrict_eq h] at hplus
    unfold ways
    rw [← hplus, State.pos_eq_of_restrict_eq h]
  group := by
    intro index p _ hp s s' h
    unfold ways
    have hmark : Respects refs fun t : State => [t.mark index ⟨s.pos, t.pos⟩] := by
      refine .singleton fun t t' ht => ?_
      rw [State.pos_eq_of_restrict_eq ht]
      exact restrict_mark_congr ht index _
    have hmarked := hmark.map_flatMap (hp s s' h)
    rw [State.pos_eq_of_restrict_eq h] at hmarked ⊢
    simpa only [List.map_eq_flatMap] using hmarked
  look _ negative back p hp := by
    intro s s' h
    obtain ⟨hpos, _⟩ := State.restrict_eq_iff.1 h
    have hseen := hp.waysBack back s s' h
    rw [ways, ways]
    -- A look keeps what groups have matched in it, unless it is negative.
    cases negative with
    | true =>
      have hempty : (waysBack back (ways text p) s).isEmpty =
          (waysBack back (ways text p) s').isEmpty := by
        rw [← List.isEmpty_map, hseen, List.isEmpty_map]
      rw [if_pos rfl, if_pos rfl, hempty]
      split
      · exact congrArg (fun u => [u]) h
      · rfl
    | false =>
      have hmap : Respects refs fun t : State => [{ t with pos := s.pos }] :=
        .singleton fun t t' ht =>
          State.restrict_eq_iff.2 ⟨rfl, (State.restrict_eq_iff.1 ht).2⟩
      have hmapped := hmap.map_flatMap hseen
      rw [if_neg Bool.false_ne_true, if_neg Bool.false_ne_true, ← hpos]
      simpa only [List.map_eq_flatMap] using hmapped
  backref _ := by
    intro index hindex
    exact .toList fun s => State.repeat?_restrict hindex s
  atomic _ := by
    intro p hp s s' h
    unfold ways
    rw [map_toList, map_toList, hp.head? h]
  keep _ _ := .singleton fun s s' h => by
    obtain ⟨hpos, _, hseen⟩ := State.restrict_eq_iff.1 h
    exact State.restrict_eq_iff.2 ⟨hpos, hpos, hseen⟩
  searchStart _ _ := Respects.ite (.singleton fun _ _ h => h) .nil
    (fun s => s.pos ≤ s.origin) fun _ => rfl
  groupSet _ := by
    intro index hindex
    exact Respects.ite (.singleton fun _ _ h => h) .nil (fun s => s.hasMatched index = true)
      fun s => congrArg (· = true) (State.hasMatched_restrict hindex s)
  branch _ := by
    intro p q r hp hq hr s s' h
    have hfirst := hp.head? h
    rw [ways, ways]
    cases hseen : (ways text p s).head? with
    | none =>
      rw [hseen] at hfirst
      rw [Option.map_eq_none_iff.1 hfirst.symm]
      exact hr s s' h
    | some t =>
      rw [hseen] at hfirst
      obtain ⟨t', ht', heq⟩ := Option.map_eq_some_iff.1 hfirst.symm
      rw [ht']
      exact hq t t' heq.symm

/-! ## Self-contained parts -/

/-- Of a way through a node nothing is seen but where it leads. -/
def Steps (text : Array Char) (refs : List Nat) (p : Node) : Prop :=
  ∀ s t, Leads text p s t → t.start = s.start ∧ t.origin = s.origin ∧
    t.marks.filter (·.1 ∈ refs) = s.marks.filter (·.1 ∈ refs)

theorem Steps.refl (s : State) : s.start = s.start ∧ s.origin = s.origin ∧
    s.marks.filter (·.1 ∈ refs) = s.marks.filter (·.1 ∈ refs) := ⟨rfl, rfl, rfl⟩

theorem Steps.trans {p q : Node} (hp : Steps text refs p) (hq : Steps text refs q) {s t u : State}
    (hfirst : Leads text p s t) (hsecond : Leads text q t u) : u.start = s.start ∧
      u.origin = s.origin ∧ u.marks.filter (·.1 ∈ refs) = s.marks.filter (·.1 ∈ refs) := by
  obtain ⟨hstart, horigin, hmarks⟩ := hp _ _ hfirst
  obtain ⟨hstart', horigin', hmarks'⟩ := hq _ _ hsecond
  exact ⟨hstart'.trans hstart, horigin'.trans horigin, hmarks'.trans hmarks⟩

theorem Steps.star {p : Node} (hp : Steps text refs p) (greedy : Bool) :
    Steps text refs (.star greedy p) := by
  intro s t h
  generalize hnode : Node.star greedy p = node at h
  induction h with
  | starDone => exact Steps.refl _
  | starRound hfirst _ _ _ ih =>
    cases hnode
    obtain ⟨hstart, horigin, hmarks⟩ := hp _ _ hfirst
    obtain ⟨hstart', horigin', hmarks'⟩ := ih rfl
    exact ⟨hstart'.trans hstart, horigin'.trans horigin, hmarks'.trans hmarks⟩
  | _ => cases hnode

/-- A self-contained part sets no group that is referred to. -/
theorem inherited_steps :
    Node.Inherited .linear (fun _ => False) (· ∉ refs) (fun _ => False) (Steps text refs) where
  empty := by
    intro s t h
    cases h
    exact Steps.refl _
  chars set := by
    intro s t h
    cases h with
    | chars hstep =>
      obtain ⟨_, _, _, rfl⟩ := step?_eq_some hstep
      exact Steps.refl _
  assertion a := by
    intro s t h
    cases h
    exact Steps.refl _
  seq hp hq := by
    intro s t h
    cases h with
    | seq hfirst hsecond => exact hp.trans hq hfirst hsecond
  alt hp hq := by
    intro s t h
    cases h with
    | altLeft h => exact hp _ _ h
    | altRight h => exact hq _ _ h
  star greedy _ hp := hp.star greedy
  plus greedy _ hp := by
    intro s t h
    cases h with
    | plusDone h _ => exact hp _ _ h
    | plusRounds hfirst _ hrest => exact hp.trans (hp.star greedy) hfirst hrest
  group hindex hp := by
    intro s t h
    cases h with
    | group h =>
      obtain ⟨hstart, horigin, hmarks⟩ := hp _ _ h
      obtain ⟨_, _, _, hmarked⟩ :=
        State.restrict_eq_iff.1 (State.restrict_mark_of_not_mem hindex _ _)
      exact ⟨hstart, horigin, hmarked.trans hmarks⟩
  look hengine := by cases hengine
  backref hengine := by cases hengine
  atomic hengine := by cases hengine
  keep hengine := by cases hengine
  searchStart hengine := by cases hengine
  groupSet hengine := by cases hengine
  branch hengine := by cases hengine

/-! ## Widths -/

namespace Expr

/-- The sum of some widths. -/
def totalWidth (parts : List Expr) : Option Nat :=
  (widths parts).foldr (fun w total => return (← w) + (← total)) (some 0)

theorem totalWidth_cons {e : Expr} {rest : List Expr} {w : Nat}
    (h : totalWidth (e :: rest) = some w) :
    ∃ first total, e.width? = some first ∧ totalWidth rest = some total ∧ first + total = w := by
  rw [totalWidth, widths, List.foldr_cons] at h
  obtain ⟨first, hfirst, h⟩ := Option.bind_eq_some_iff.1 h
  obtain ⟨total, htotal, h⟩ := Option.bind_eq_some_iff.1 h
  exact ⟨first, total, hfirst, htotal, Option.some.inj h⟩

theorem width?_of_commonWidth {branches : List Expr} {w : Nat}
    (h : commonWidth (widths branches) = some w) : ∀ b ∈ branches, b.width? = some w := by
  induction branches with
  | nil => cases h
  | cons e rest ih =>
    cases rest with
    | nil =>
      intro b hb
      obtain rfl := List.mem_singleton.1 hb
      exact h
    | cons e' rest =>
      rw [widths, widths, commonWidth] at h
      · split at h
        · rename_i hcommon
          intro b hb
          rcases List.mem_cons.1 hb with rfl | hb
          · exact h
          · rw [h] at hcommon
            exact ih hcommon b hb
        · cases h
      · exact fun hnil => by cases hnil

/-- All ways through the node lead equally far. -/
def Advances (text : Array Char) (p : Node) (w : Nat) : Prop :=
  ∀ s t, Leads text p s t → t.pos = s.pos + w

theorem Advances.copies {p rest : Node} {w w' : Nat} (hp : Advances text p w)
    (hrest : Advances text rest w') (n : Nat) : Advances text (p.copies rest n) (w * n + w') := by
  induction n with
  | zero =>
    intro s t h
    rw [hrest s t h]
    omega
  | succ n ih =>
    intro s t h
    cases h with
    | seq hfirst hsecond =>
      rw [ih _ _ hsecond, hp _ _ hfirst, Nat.mul_succ]
      omega

theorem advances_empty : Advances text .empty 0 := by
  intro s t h
  cases h
  rfl

theorem advances_plainSeq {parts : List Expr} {w : Nat}
    (hparts : ∀ e ∈ parts, ∀ w, e.width? = some w → Advances text e.plain w)
    (h : totalWidth parts = some w) : Advances text (plainSeq parts) w := by
  induction parts generalizing w with
  | nil =>
    obtain rfl : 0 = w := Option.some.inj h
    exact advances_empty
  | cons e rest ih =>
    obtain ⟨first, total, hfirst, htotal, rfl⟩ := totalWidth_cons h
    obtain ⟨he, hrest⟩ := List.forall_mem_cons.1 hparts
    have hadvances := ih hrest htotal
    cases rest with
    | nil =>
      obtain rfl : 0 = total := Option.some.inj htotal
      exact he first hfirst
    | cons e' rest =>
      intro s t h
      cases h with
      | seq hleads hleads' =>
        rw [hadvances _ _ hleads', he first hfirst _ _ hleads, Nat.add_assoc]

theorem advances_plainAlt {branches : List Expr} {w : Nat}
    (hbranches : ∀ e ∈ branches, Advances text e.plain w) (hne : branches ≠ []) :
    Advances text (plainAlt branches) w := by
  induction branches with
  | nil => exact absurd rfl hne
  | cons e rest ih =>
    obtain ⟨he, hrest⟩ := List.forall_mem_cons.1 hbranches
    cases rest with
    | nil => exact he
    | cons e' rest =>
      intro s t h
      cases h with
      | altLeft h => exact he s t h
      | altRight h => exact ih hrest (List.cons_ne_nil _ _) s t h

/-- All ways through a part of a fixed width lead equally far. -/
theorem Built.advances {engine : Engine} {features : Feature → Prop} {sets refers : Nat → Prop}
    {e : Expr}
    (h : e.Built engine features sets refers) :
    ∀ w, e.width? = some w → Advances text e.plain w := by
  have hstay : ∀ {p : Node} {w : Nat}, some 0 = some w →
      (∀ s t, Leads text p s t → t.pos = s.pos) → Advances text p w := by
    intro p w hw hpos s t h
    rw [hpos s t h, ← Option.some.inj hw]
    rfl
  induction h with
  | empty => exact fun w hw => hstay hw fun s t h => by cases h; rfl
  | chars set =>
    intro w hw s t h
    cases h with
    | chars hstep =>
      obtain ⟨_, _, _, rfl⟩ := step?_eq_some hstep
      rw [← Option.some.inj hw]
  | assertion a => exact fun w hw => hstay hw fun s t h => by cases h; rfl
  | concat _ ih => exact fun w hw => advances_plainSeq ih hw
  | @alternatives branches _ ih =>
    intro w hw
    refine advances_plainAlt (fun e he => ih e he w (width?_of_commonWidth hw e he)) ?_
    rintro rfl
    cases hw
  | @times body _ least most greedy ih =>
    intro w hw
    rw [width?] at hw
    split at hw
    · rename_i hmost
      subst hmost
      obtain ⟨bodyWidth, hbody, rfl⟩ := Option.map_eq_some_iff.1 hw
      have hrounds := ih bodyWidth hbody
      unfold plain
      simp only [Option.isNone_some, Bool.and_false, Bool.false_eq_true, if_false, repeated,
        Nat.le_refl, if_true]
      cases least with
      | zero => exact advances_empty
      | succ n => exact hrounds.copies hrounds n
    · cases hw
  | group _ _ ih =>
    intro w hw s t h
    cases h with
    | group h =>
      have hpos := ih w hw _ _ h
      exact hpos
  | ahead _ negative _ _ => exact fun w hw => hstay hw fun s t h => by cases h <;> rfl
  | behind _ negative _ _ => exact fun w hw => hstay hw fun s t h => by cases h <;> rfl
  | backref _ _ => exact fun w hw => by cases hw
  | atomic _ _ ih =>
    intro w hw s t h
    cases h with
    | atomic h => exact ih w hw s t h
  | keep _ _ => exact fun w hw => hstay hw fun s t h => by cases h; rfl
  | searchStart _ _ => exact fun w hw => hstay hw fun s t h => by cases h; rfl
  | groupSet _ _ => exact fun w hw => hstay hw fun s t h => by cases h; rfl
  | conditional _ _ _ _ ihc ihy ihn =>
    intro w hw s t h
    rw [width?] at hw
    split at hw
    · rename_i c y n hc hy hn
      split at hw
      · rename_i hsum
        cases hw
        cases h with
        | branchYes hleads hleads' =>
          rw [ihy y hy _ _ hleads', ihc c hc _ _ hleads, Nat.add_assoc, hsum]
        | branchNo hleads => exact ihn _ hn _ _ hleads
      · cases hw
    · cases hw

/-! ## Settled parts -/

/-- All ways through a part that is self-contained and has a fixed width look alike. -/
theorem Built.restrict_eq_of_isSettled {engine : Engine} {features : Feature → Prop}
    {sets refers : Nat → Prop}
    {e : Expr} (h : e.Built engine features sets refers) (hsettled : e.isSettled refs = true)
    {s t t' : State} (ht : Leads text e.plain s t) (ht' : Leads text e.plain s t') :
    t.restrict refs = t'.restrict refs := by
  obtain ⟨hself, hwidth⟩ := Bool.and_eq_true_iff.1 hsettled
  obtain ⟨w, hw⟩ := Option.isSome_iff_exists.1 hwidth
  have hsteps : Steps text refs e.plain := inherited_steps.plain (h.of_isSelfContained hself)
  have hadvances : Advances text e.plain w := h.advances w hw
  obtain ⟨hstart, horigin, hmarks⟩ := hsteps s t ht
  obtain ⟨hstart', horigin', hmarks'⟩ := hsteps s t' ht'
  exact State.restrict_eq_iff.2 ⟨(hadvances s t ht).trans (hadvances s t' ht').symm,
    hstart.trans hstart'.symm, horigin.trans horigin'.symm, hmarks.trans hmarks'.symm⟩

end Expr

end Banknote.Pattern
