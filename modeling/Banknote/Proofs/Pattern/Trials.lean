import Banknote.Proofs.Pattern.Locality

/-!
# What the ways to match a pattern read

`ways` lists where the ways to match a pattern lead.  `trials` lists the same ways with what each of
them reads, and the failed ones among them.  What is looked at to no avail counts as read where it
decides something: in a negative look, an atomic group and a condition.

What is read has a number: zero for the start of the text, and one more than its place for a
character.  The place behind the last character stands for the end of the text.

* Trials.  `ways_eq_filterMap_stop?`: the ways are those of the trials that do not fail.
* Texts.  `Agree` says that two texts have in common what has one of some numbers.  `Corresponds`
  compares the trials in both: those that read nothing else are there in both, in the same order.
* Nodes.  `corresponds_trials` goes through all nodes.

`exists_mem_ways_of_trial` puts these together: a trial that reads only what the texts have in common
is a way to match the pattern in the other text.
-/

namespace Banknote.Pattern

/-! ## Trials -/

/-- One way that is tried to match a pattern. -/
structure Trial where
  /-- Where it leads, unless it fails. -/
  stop? : Option State
  /-- What it reads. -/
  reads : List Nat

namespace Trial

/-- A trial that reads something else before. -/
def after (reads : List Nat) (x : Trial) : Trial := { x with reads := reads ++ x.reads }

/-- Goes on from where a trial leads. -/
def andThen (f : State → List Trial) (x : Trial) : List Trial :=
  match x.stop? with
  | none => [x]
  | some s => (f s).map (after x.reads)

/-- A trial that leads somewhere else. -/
def mapEnd (g : State → State) (x : Trial) : Trial := { x with stop? := x.stop?.map g }

/-- The trials up to the first one that does not fail, taken together. -/
def first : List Trial → Trial
  | [] => ⟨none, []⟩
  | x :: rest =>
    match x.stop? with
    | none => (first rest).after x.reads
    | some _ => x

/-- Stays at a state if a trial fails, and fails if it does not. -/
def lacking (s : State) (x : Trial) : Trial :=
  { x with stop? := if x.stop?.isNone then some s else none }

end Trial

/-- What a condition on a place reads. -/
def Assertion.reads (pos : Nat) : Assertion → List Nat
  | textStart => if pos = 0 then [0] else []
  | lineStart => [pos]
  | textEnd | lineEnd => [pos + 1]
  | wordStartHalf => [pos]
  | wordEndHalf => [pos + 1]
  | returnStart | returnEnd | wordBoundary | notWordBoundary | wordStart | wordEnd => [pos, pos + 1]

/-- What is read to repeat what a group has matched. -/
def State.repeatReads (index : Nat) (s : State) : List Nat :=
  match s.marks.lookup index with
  | none => []
  | some span =>
    let length := span.stop - span.first
    List.range' (span.first + 1) length ++ List.range' (s.pos + 1) length

/-- The trials through the rounds of a star, given those of one round.  `fuel` bounds the number of
rounds. -/
def starTrials (greedy : Bool) (body : State → List Trial) : Nat → State → List Trial
  | 0, s => [⟨some s, []⟩]
  | fuel + 1, s =>
    let more := (body s).flatMap (Trial.andThen fun t =>
      if s.pos < t.pos then starTrials greedy body fuel t else [⟨none, []⟩])
    if greedy then more ++ [⟨some s, []⟩] else ⟨some s, []⟩ :: more

/-- The trials that start some characters before the place. -/
def trialsBack (back : Nat) (body : State → List Trial) (s : State) : List Trial :=
  if s.pos < back then [⟨none, [0]⟩] else body { s with pos := s.pos - back }

/-- The ways that are tried to match a pattern from a state, the preferred one first.  Unlike a way,
a star is tried once more at the end of the text, since it is read there. -/
def trials (text : Array Char) : Node → State → List Trial
  | .empty, s => [⟨some s, []⟩]
  | .chars set, s => [⟨s.step? text set, [s.pos + 1]⟩]
  | .assertion a, s => [⟨if a.holds text s.pos then some s else none, a.reads s.pos⟩]
  | .seq p q, s => (trials text p s).flatMap (Trial.andThen (trials text q))
  | .alt p q, s => trials text p s ++ trials text q s
  | .star greedy p, s => starTrials greedy (trials text p) (text.size + 1 - s.pos) s
  | .plus greedy p, s =>
    (trials text p s).flatMap (Trial.andThen fun t =>
      if s.pos < t.pos then starTrials greedy (trials text p) (text.size + 1 - t.pos) t
      else [⟨some t, []⟩])
  | .group index p, s =>
    (trials text p s).map (Trial.mapEnd fun t => t.mark index ⟨s.pos, t.pos⟩)
  | .look negative back p, s =>
    let seen := trialsBack back (trials text p) s
    if negative then [(Trial.first seen).lacking s]
    else seen.map (Trial.mapEnd fun t => { t with pos := s.pos })
  | .backref index, s => [⟨s.repeat? text index, s.repeatReads index⟩]
  | .atomic p, s => [Trial.first (trials text p s)]
  | .keep, s => [⟨some { s with start := s.pos }, []⟩]
  | .searchStart, s => if s.pos ≤ s.origin then [⟨some s, [0]⟩] else [⟨none, []⟩]
  | .groupSet index, s => [⟨if s.hasMatched index then some s else none, []⟩]
  | .branch condition yes no, s =>
    let asked := Trial.first (trials text condition s)
    match asked.stop? with
    | some t => (trials text yes t).map (Trial.after asked.reads)
    | none => (trials text no s).map (Trial.after asked.reads)

variable {text text' : Array Char}

namespace Trial

variable {f : State → List Trial} {l : List Trial}

theorem andThen_ne_nil (hf : ∀ t, f t ≠ []) (x : Trial) : x.andThen f ≠ [] := by
  unfold andThen
  split
  · exact List.cons_ne_nil _ _
  · rename_i t _
    exact mt List.map_eq_nil_iff.1 (hf t)

theorem flatMap_andThen_ne_nil (hl : l ≠ []) (hf : ∀ t, f t ≠ []) :
    l.flatMap (andThen f) ≠ [] := by
  obtain ⟨x, hx⟩ := List.exists_mem_of_ne_nil l hl
  exact fun hnil => andThen_ne_nil hf x (List.flatMap_eq_nil_iff.1 hnil x hx)

theorem filterMap_after (reads : List Nat) (l : List Trial) :
    (l.map (after reads)).filterMap stop? = l.filterMap stop? := by
  rw [List.filterMap_map]
  rfl

theorem filterMap_mapEnd (g : State → State) (l : List Trial) :
    (l.map (mapEnd g)).filterMap stop? = (l.filterMap stop?).map g := by
  rw [List.filterMap_map, List.map_filterMap]
  rfl

theorem filterMap_andThen (f : State → List Trial) (l : List Trial) :
    (l.flatMap (andThen f)).filterMap stop? =
      (l.filterMap stop?).flatMap fun t => (f t).filterMap stop? := by
  induction l with
  | nil => rfl
  | cons x rest ih =>
    rw [List.flatMap_cons, List.filterMap_append, ih, andThen]
    cases hend : x.stop? with
    | none => simp only [List.filterMap_cons, hend, List.filterMap_nil, List.nil_append]
    | some t =>
      dsimp only
      rw [filterMap_after, List.filterMap_cons, hend]
      rfl

theorem stop?_first (l : List Trial) : (first l).stop? = (l.filterMap stop?).head? := by
  induction l with
  | nil => rfl
  | cons x rest ih =>
    rw [List.filterMap_cons, first]
    cases hend : x.stop? with
    | none => exact ih
    | some t => exact hend

end Trial

theorem starTrials_ne_nil {greedy : Bool} {body : State → List Trial} (fuel : Nat) (s : State) :
    starTrials greedy body fuel s ≠ [] := by
  cases fuel with
  | zero => exact List.cons_ne_nil _ _
  | succ fuel =>
    cases greedy with
    | true => exact List.append_ne_nil_of_right_ne_nil _ (List.cons_ne_nil _ _)
    | false => exact List.cons_ne_nil _ _

/-- There is always a trial, if only a failed one. -/
theorem trials_ne_nil (p : Node) (s : State) : trials text p s ≠ [] := by
  induction p generalizing s with
  | empty => exact List.cons_ne_nil _ _
  | chars set => exact List.cons_ne_nil _ _
  | assertion a => exact List.cons_ne_nil _ _
  | seq p q ihp ihq => exact Trial.flatMap_andThen_ne_nil (ihp s) ihq
  | alt p q ihp ihq => exact List.append_ne_nil_of_left_ne_nil (ihp s) _
  | star greedy p ih => exact starTrials_ne_nil _ s
  | plus greedy p ih =>
    refine Trial.flatMap_andThen_ne_nil (ih s) fun t => ?_
    split
    · exact starTrials_ne_nil _ t
    · exact List.cons_ne_nil _ _
  | group index p ih => exact mt List.map_eq_nil_iff.1 (ih s)
  | look negative back p ih =>
    unfold trials
    dsimp only
    split
    · exact List.cons_ne_nil _ _
    · refine mt List.map_eq_nil_iff.1 ?_
      unfold trialsBack
      split
      · exact List.cons_ne_nil _ _
      · exact ih _
  | backref index => exact List.cons_ne_nil _ _
  | atomic p ih => exact List.cons_ne_nil _ _
  | keep => exact List.cons_ne_nil _ _
  | searchStart =>
    unfold trials
    split
    · exact List.cons_ne_nil _ _
    · exact List.cons_ne_nil _ _
  | groupSet index => exact List.cons_ne_nil _ _
  | branch condition yes no ihc ihy ihn =>
    unfold trials
    dsimp only
    split
    · exact mt List.map_eq_nil_iff.1 (ihy _)
    · exact mt List.map_eq_nil_iff.1 (ihn s)

theorem flatMap_filter_forward (s : State) (l : List State) (f : State → List State) :
    (l.filter (s.pos < ·.pos)).flatMap f = l.flatMap fun t => if s.pos < t.pos then f t else [] := by
  induction l with
  | nil => rfl
  | cons t rest ih =>
    by_cases hpos : s.pos < t.pos
    · simp only [List.filter_cons, hpos, decide_true, if_true, List.flatMap_cons, ih]
    · simp only [List.filter_cons, hpos, decide_false, Bool.false_eq_true, if_false,
        List.flatMap_cons, ih, List.nil_append]

theorem starWays_eq_filterMap_stop? {body : State → List State} {tries : State → List Trial}
    (hbody : ∀ s, Inside text s → body s = (tries s).filterMap Trial.stop?)
    (hinside : ∀ s, Inside text s → ∀ t ∈ body s, Inside text t) (greedy : Bool) (fuel : Nat)
    {s : State} (hs : Inside text s) :
    starWays greedy body fuel s = (starTrials greedy tries fuel s).filterMap Trial.stop? := by
  induction fuel generalizing s with
  | zero => rfl
  | succ fuel ih =>
    have hmore : ((body s).filter (s.pos < ·.pos)).flatMap (starWays greedy body fuel) =
        ((tries s).flatMap (Trial.andThen fun t =>
          if s.pos < t.pos then starTrials greedy tries fuel t else [⟨none, []⟩])).filterMap
            Trial.stop? := by
      rw [flatMap_filter_forward, Trial.filterMap_andThen, ← hbody s hs]
      refine List.flatMap_congr fun t ht => ?_
      split
      · exact ih (hinside s hs t ht)
      · rfl
    rw [starWays, starTrials, hmore]
    cases greedy with
    | true => rw [if_pos rfl, if_pos rfl, List.filterMap_append]; rfl
    | false => rfl

/-- The ways to match a pattern are the trials that do not fail. -/
theorem ways_eq_filterMap_stop? {p : Node} {s : State} (hs : Inside text s) :
    ways text p s = (trials text p s).filterMap Trial.stop? := by
  induction p generalizing s with
  | empty => rfl
  | chars set =>
    rw [ways, trials, List.filterMap_cons]
    cases s.step? text set <;> rfl
  | assertion a =>
    rw [ways, trials, List.filterMap_cons]
    dsimp only
    split <;> rfl
  | seq p q ihp ihq =>
    rw [ways, trials, Trial.filterMap_andThen, ← ihp hs]
    exact List.flatMap_congr fun t ht => ihq (hs.of_mem_ways ht)
  | alt p q ihp ihq => rw [ways, trials, List.filterMap_append, ihp hs, ihq hs]
  | star greedy p ih =>
    have hfuel : text.size - s.pos ≤ text.size + 1 - s.pos := Nat.sub_le_sub_right (Nat.le_succ _) _
    rw [trials, ← starWays_eq_filterMap_stop? (fun s hs => ih hs) (fun s hs t => hs.of_mem_ways)
      greedy _ hs, starWays_ways_of_le hs hfuel]
  | plus greedy p ih =>
    rw [ways, trials, Trial.filterMap_andThen, ← ih hs]
    refine List.flatMap_congr fun t ht => ?_
    have hthere := hs.of_mem_ways ht
    have hfuel : text.size - t.pos ≤ text.size + 1 - t.pos := Nat.sub_le_sub_right (Nat.le_succ _) _
    split
    · rw [← starWays_eq_filterMap_stop? (fun s hs => ih hs) (fun s hs t => hs.of_mem_ways) greedy _
        hthere, starWays_ways_of_le hthere hfuel]
      rfl
    · rfl
  | group index p ih => rw [ways, trials, Trial.filterMap_mapEnd, ih hs]
  | look negative back p ih =>
    have hseen : waysBack back (ways text p) s =
        (trialsBack back (trials text p) s).filterMap Trial.stop? := by
      unfold waysBack trialsBack
      split
      · rfl
      · exact ih ⟨Nat.le_trans (Nat.sub_le _ _) hs.pos_le, hs.stop_le⟩
    rw [ways, trials, hseen]
    cases negative with
    | false =>
      rw [if_neg Bool.false_ne_true, if_neg Bool.false_ne_true, Trial.filterMap_mapEnd]
    | true =>
      rw [if_pos rfl, if_pos rfl, List.filterMap_cons, Trial.lacking, Trial.stop?_first]
      cases (List.filterMap Trial.stop? _) <;> rfl
  | backref index =>
    rw [ways, trials, List.filterMap_cons]
    cases s.repeat? text index <;> rfl
  | atomic p ih =>
    rw [ways, trials, List.filterMap_cons, Trial.stop?_first, ← ih hs]
    cases (ways text p s).head? <;> rfl
  | keep => rfl
  | searchStart =>
    rw [ways, trials]
    split <;> rfl
  | groupSet index =>
    rw [ways, trials, List.filterMap_cons]
    dsimp only
    split <;> rfl
  | branch condition yes no ihc ihy ihn =>
    rw [ways, trials, Trial.stop?_first, ← ihc hs]
    cases hasked : (ways text condition s).head? with
    | none => exact (ihn hs).trans (Trial.filterMap_after _ _).symm
    | some t =>
      have ht := hs.of_mem_ways (List.mem_of_mem_head? hasked)
      exact (ihy ht).trans (Trial.filterMap_after _ _).symm

theorem Inside.trial {p : Node} {s t : State} (hs : Inside text s) {x : Trial}
    (hx : x ∈ trials text p s) (hend : x.stop? = some t) : Inside text t := by
  have ht : t ∈ ways text p s := by
    rw [ways_eq_filterMap_stop? hs]
    exact List.mem_filterMap.2 ⟨x, hx, hend⟩
  exact hs.of_mem_ways ht

theorem Inside.first {p : Node} {s t : State} (hs : Inside text s)
    (hend : (Trial.first (trials text p s)).stop? = some t) : Inside text t := by
  rw [Trial.stop?_first, ← ways_eq_filterMap_stop? hs] at hend
  exact hs.of_mem_ways (List.mem_of_mem_head? hend)

/-! ## Texts -/

/-- A text has what has some numbers so many places further on in another text.  What stands at its
start stays there. -/
structure Agree (text text' : Array Char) (shift : Nat) (W : Nat → Prop) : Prop where
  start (h : W 0) : shift = 0
  char (pos : Nat) (h : W (pos + 1)) : text[pos]? = text'[pos + shift]?
  stop (pos : Nat) (h : W (pos + 1)) : pos = text.size ↔ pos + shift = text'.size

/-- The trial reads only what has some numbers. -/
def Trial.Within (W : Nat → Prop) (x : Trial) : Prop := ∀ slot ∈ x.reads, W slot

/-- The trials that read only what has some numbers lead so many places further on in other trials,
in the same order.  Where a trial reads something else, there may be any other trials. -/
inductive Corresponds (shift : Nat) (W : Nat → Prop) : List Trial → List Trial → Prop
  | nil : Corresponds shift W [] []
  | within {x x' : Trial} {l l' : List Trial} (hx : x.Within W)
    (hend : x'.stop? = x.stop?.map (·.shift shift)) (hl : Corresponds shift W l l') :
    Corresponds shift W (x :: l) (x' :: l')
  | beyond {x : Trial} {l l' : List Trial} (hx : ¬ x.Within W) (others : List Trial)
    (hl : Corresponds shift W l l') : Corresponds shift W (x :: l) (others ++ l')

theorem Trial.within_after {W : Nat → Prop} {reads : List Nat} {x : Trial} :
    (x.after reads).Within W ↔ (∀ slot ∈ reads, W slot) ∧ x.Within W :=
  List.forall_mem_append

namespace Corresponds

variable {shift : Nat} {W : Nat → Prop} {l l' : List Trial}

theorem single {x x' : Trial} (h : x.Within W → x'.stop? = x.stop?.map (·.shift shift)) :
    Corresponds shift W [x] [x'] := by
  by_cases hx : x.Within W
  · exact .within hx (h hx) .nil
  · exact .beyond hx [x'] .nil

theorem append {k k' : List Trial} (hl : Corresponds shift W l l')
    (hk : Corresponds shift W k k') : Corresponds shift W (l ++ k) (l' ++ k') := by
  induction hl with
  | nil => exact hk
  | within hx hend _ ih => exact .within hx hend ih
  | beyond hx others _ ih =>
    rw [List.append_assoc]
    exact .beyond hx others ih

/-- Trials that all read something else may be replaced by any other ones. -/
theorem of_beyond (hne : l ≠ []) (hl : ∀ x ∈ l, ¬ x.Within W) (l' : List Trial) :
    Corresponds shift W l l' := by
  have hnil : ∀ l : List Trial, (∀ x ∈ l, ¬ x.Within W) → Corresponds shift W l [] := by
    intro l hl
    induction l with
    | nil => exact .nil
    | cons x rest ih =>
      obtain ⟨hx, hrest⟩ := List.forall_mem_cons.1 hl
      exact .beyond hx [] (ih hrest)
  cases l with
  | nil => exact absurd rfl hne
  | cons x rest =>
    obtain ⟨hx, hrest⟩ := List.forall_mem_cons.1 hl
    rw [← List.append_nil l']
    exact .beyond hx l' (hnil rest hrest)

theorem after {reads : List Nat} (hreads : ∀ slot ∈ reads, W slot) (reads' : List Nat)
    (hl : Corresponds shift W l l') :
    Corresponds shift W (l.map (Trial.after reads)) (l'.map (Trial.after reads')) := by
  induction hl with
  | nil => exact .nil
  | within hx hend _ ih => exact .within (Trial.within_after.2 ⟨hreads, hx⟩) hend ih
  | beyond hx others _ ih =>
    rw [List.map_append]
    exact .beyond (fun hafter => hx (Trial.within_after.1 hafter).2) _ ih

theorem of_after {reads : List Nat} (hreads : ¬ ∀ slot ∈ reads, W slot) (hne : l ≠ [])
    (l' : List Trial) : Corresponds shift W (l.map (Trial.after reads)) l' := by
  refine of_beyond (mt List.map_eq_nil_iff.1 hne) ?_ l'
  intro x hx
  obtain ⟨y, _, rfl⟩ := List.mem_map.1 hx
  exact fun hafter => hreads (Trial.within_after.1 hafter).1

theorem mapEnd {g g' : State → State} (hg : ∀ t, g' (t.shift shift) = (g t).shift shift)
    (hl : Corresponds shift W l l') :
    Corresponds shift W (l.map (Trial.mapEnd g)) (l'.map (Trial.mapEnd g')) := by
  induction hl with
  | nil => exact .nil
  | @within x x' l l' hx hend _ ih =>
    refine .within hx ?_ ih
    unfold Trial.mapEnd
    rw [hend]
    cases x.stop? with
    | none => rfl
    | some t => exact congrArg some (hg t)
  | @beyond x l l' hx others _ ih =>
    rw [List.map_append]
    exact Corresponds.beyond (x := x.mapEnd g) hx _ ih

theorem stop?_first (hl : Corresponds shift W l l') (hfirst : (Trial.first l).Within W) :
    (Trial.first l').stop? = (Trial.first l).stop?.map (·.shift shift) := by
  induction hl with
  | nil => rfl
  | @within x x' l l' hx hend _ ih =>
    unfold Trial.first at hfirst ⊢
    rw [hend]
    cases hx : x.stop? with
    | none =>
      rw [hx] at hfirst
      exact ih (Trial.within_after.1 hfirst).2
    | some t => rw [hx] at hend; exact hend.trans (congrArg _ hx.symm)
  | @beyond x l l' hx others _ ih =>
    unfold Trial.first at hfirst
    cases hend : x.stop? with
    | none =>
      rw [hend] at hfirst
      exact absurd (Trial.within_after.1 hfirst).1 hx
    | some t =>
      rw [hend] at hfirst
      exact absurd hfirst hx

theorem stop?_lacking (hl : Corresponds shift W l l') {s : State}
    (hfirst : (Trial.first l).Within W) :
    ((Trial.first l').lacking (s.shift shift)).stop? =
      ((Trial.first l).lacking s).stop?.map (·.shift shift) := by
  unfold Trial.lacking
  rw [hl.stop?_first hfirst]
  cases (Trial.first l).stop? <;> rfl

theorem flatMap {f f' : State → List Trial} (hne : ∀ t, f t ≠ []) (hl : Corresponds shift W l l')
    (hf : ∀ x ∈ l, ∀ x' ∈ l', ∀ t, x.stop? = some t → x'.stop? = some (t.shift shift) →
      Corresponds shift W (f t) (f' (t.shift shift))) :
    Corresponds shift W (l.flatMap (Trial.andThen f)) (l'.flatMap (Trial.andThen f')) := by
  induction hl with
  | nil => exact .nil
  | @within x x' l l' hx hend _ ih =>
    rw [List.flatMap_cons, List.flatMap_cons]
    refine append ?_ (ih fun y hy y' hy' =>
      hf y (List.mem_cons_of_mem _ hy) y' (List.mem_cons_of_mem _ hy'))
    have hhere := hf x List.mem_cons_self x' List.mem_cons_self
    unfold Trial.andThen
    cases hthere : x.stop? with
    | none =>
      rw [hthere] at hend
      rw [hend]
      exact .single fun _ => by rw [hend, hthere, Option.map_none]
    | some t =>
      rw [hthere] at hend
      rw [hend]
      exact (hhere t hthere hend).after hx _
  | @beyond x l l' hx others _ ih =>
    rw [List.flatMap_cons, List.flatMap_append]
    refine append ?_ (ih fun y hy y' hy' =>
      hf y (List.mem_cons_of_mem _ hy) y' (List.mem_append_right _ hy'))
    unfold Trial.andThen
    cases x.stop? with
    | none => exact of_beyond (List.cons_ne_nil _ _) (List.forall_mem_singleton.2 hx) _
    | some t => exact of_after hx (hne t) _

/-- A trial that reads nothing else is there in both. -/
theorem exists_mem (hl : Corresponds shift W l l') {x : Trial} (hx : x ∈ l) (hwithin : x.Within W)
    {t : State} (hend : x.stop? = some t) : ∃ x' ∈ l', x'.stop? = some (t.shift shift) := by
  induction hl with
  | nil => cases hx
  | @within y y' l l' hy hend' _ ih =>
    rcases List.mem_cons.1 hx with rfl | hx
    · exact ⟨y', List.mem_cons_self, by rw [hend', hend]; rfl⟩
    · obtain ⟨x', hx', hthere⟩ := ih hx
      exact ⟨x', List.mem_cons_of_mem _ hx', hthere⟩
  | @beyond y l l' hy others _ ih =>
    rcases List.mem_cons.1 hx with rfl | hx
    · exact absurd hwithin hy
    · obtain ⟨x', hx', hthere⟩ := ih hx
      exact ⟨x', List.mem_append_right _ hx', hthere⟩

end Corresponds

/-! ## Nodes -/

section

variable {shift : Nat} {W : Nat → Prop}

theorem Agree.step? (h : Agree text text' shift W) {s : State} (hread : W (s.pos + 1))
    (set : CharSet) :
    (s.shift shift).step? text' set = (s.step? text set).map (·.shift shift) := by
  have hchar : text[s.pos]? = text'[(s.shift shift).pos]? := h.char s.pos hread
  unfold State.step?
  rw [← hchar]
  cases text[s.pos]? with
  | none => rfl
  | some c =>
    dsimp only
    split
    · simp only [Option.map_some, State.shift, Nat.add_right_comm]
    · rfl

/-- The characters before two places are the same, or both are the start. -/
theorem Agree.charBefore (h : Agree text text' shift W) {pos : Nat} (hread : W pos) :
    (pos = 0 ↔ pos + shift = 0) ∧ (pos ≠ 0 → text[pos - 1]? = text'[pos + shift - 1]?) := by
  cases pos with
  | zero =>
    have hstart := h.start hread
    exact ⟨by omega, fun hne => absurd rfl hne⟩
  | succ pos =>
    have hplace : pos + 1 + shift - 1 = pos + shift := by omega
    refine ⟨by omega, fun _ => ?_⟩
    rw [hplace]
    exact h.char pos hread

/-- Places look alike if what is on both sides of them is read. -/
theorem Agree.sameAt (h : Agree text text' shift W) {pos : Nat} (hbefore : W pos)
    (hbehind : W (pos + 1)) : SameAt text text' pos (pos + shift) where
  start := (h.charBefore hbefore).1
  stop := h.stop pos hbehind
  before := (h.charBefore hbefore).2
  behind := h.char pos hbehind

theorem Agree.atEnd (h : Agree text text' shift W) {pos : Nat} (hread : W (pos + 1)) :
    (pos + shift == text'.size) = (pos == text.size) := by
  rw [Bool.eq_iff_iff, beq_iff_eq, beq_iff_eq]
  exact (h.stop pos hread).symm

theorem Agree.wordBefore (h : Agree text text' shift W) {pos : Nat} (hread : W pos) :
    wordBefore text' (pos + shift) = wordBefore text pos := by
  obtain ⟨hzero, hchar⟩ := h.charBefore hread
  by_cases hpos : pos = 0
  · rw [hzero.1 hpos, hpos]
    rfl
  · rw [Pattern.wordBefore, Pattern.wordBefore, wordAt, wordAt, hchar hpos, bne_iff_ne.2 hpos,
      bne_iff_ne.2 (mt hzero.2 hpos)]

theorem Agree.holds (h : Agree text text' shift W) {pos : Nat} {a : Assertion}
    (hread : ∀ slot ∈ a.reads pos, W slot) : a.holds text' (pos + shift) = a.holds text pos := by
  cases a with
  | textStart =>
    by_cases hpos : pos = 0
    · have hread : W 0 :=
        hread 0 (by rw [Assertion.reads, if_pos hpos]; exact List.mem_singleton_self 0)
      rw [h.start hread]
      rfl
    · simp only [Assertion.holds]
      rw [beq_false_of_ne hpos, beq_false_of_ne (by omega)]
  -- These read what comes before the place, or what comes behind it.
  | lineStart =>
    obtain ⟨hzero, hchar⟩ := h.charBefore (hread _ (List.mem_singleton_self _))
    by_cases hpos : pos = 0
    · rw [hzero.1 hpos, hpos]
      rfl
    · simp only [Assertion.holds]
      rw [beq_false_of_ne hpos, beq_false_of_ne (mt hzero.2 hpos), hchar hpos]
  | wordStartHalf =>
    simp only [Assertion.holds, h.wordBefore (hread _ (List.mem_singleton_self _))]
  | textEnd => exact h.atEnd (hread _ (List.mem_singleton_self _))
  | lineEnd =>
    have hread := hread _ (List.mem_singleton_self _)
    simp only [Assertion.holds, h.atEnd hread, h.char pos hread]
  | wordEndHalf =>
    simp only [Assertion.holds, wordAt, h.char pos (hread _ (List.mem_singleton_self _))]
  -- The others read both.
  | returnStart | returnEnd | wordBoundary | notWordBoundary | wordStart | wordEnd =>
    obtain ⟨hbefore, hbehind⟩ := List.forall_mem_cons.1 hread
    exact ((h.sameAt hbefore (List.forall_mem_singleton.1 hbehind)).holds _).symm

theorem State.lookup_shift (s : State) (index n : Nat) :
    (s.shift n).marks.lookup index =
      (s.marks.lookup index).map fun span => ⟨span.first + n, span.stop + n⟩ := by
  rw [State.shift]
  dsimp only
  induction s.marks with
  | nil => rfl
  | cons mark marks ih =>
    obtain ⟨other, span⟩ := mark
    rw [List.map_cons, List.lookup_cons, List.lookup_cons]
    cases index == other with
    | true => rfl
    | false => exact ih

theorem getElem?_extract_eq (text : Array Char) (first stop i : Nat) :
    (text.extract first stop)[i]? = if first + i < stop then text[first + i]? else none := by
  rw [Array.getElem?_extract]
  by_cases hstop : first + i < stop
  · rw [if_pos hstop]
    by_cases hsize : first + i < text.size
    · rw [if_pos (by omega)]
    · rw [if_neg (by omega), Array.getElem?_eq_none (by omega)]
  · rw [if_neg hstop, if_neg (by omega)]

theorem Agree.extract_eq (h : Agree text text' shift W) {first stop : Nat}
    (hread : ∀ slot ∈ List.range' (first + 1) (stop - first), W slot) :
    text'.extract (first + shift) (stop + shift) = text.extract first stop := by
  refine Array.ext_getElem? fun i => ?_
  rw [getElem?_extract_eq, getElem?_extract_eq]
  by_cases hlt : first + i < stop
  · have hplace : first + shift + i = first + i + shift := by omega
    have hslot : W (first + i + 1) := hread _ (List.mem_range'_1.2 (by omega))
    rw [if_pos (by omega), if_pos hlt, hplace, h.char _ hslot]
  · rw [if_neg (by omega), if_neg hlt]

theorem Agree.repeat? (h : Agree text text' shift W) {s : State} {index : Nat}
    (hread : ∀ slot ∈ s.repeatReads index, W slot) :
    (s.shift shift).repeat? text' index = (s.repeat? text index).map (·.shift shift) := by
  unfold State.repeatReads at hread
  unfold State.repeat?
  rw [State.lookup_shift]
  cases hlookup : s.marks.lookup index with
  | none => rfl
  | some span =>
    rw [hlookup] at hread
    obtain ⟨hreadMarked, hreadNext⟩ := List.forall_mem_append.1 hread
    have hlength : span.stop + shift - (span.first + shift) = span.stop - span.first := by omega
    have hend : s.pos + shift + (span.stop - span.first) =
        s.pos + (span.stop - span.first) + shift := by omega
    have hmarked := h.extract_eq hreadMarked
    rw [← Nat.add_sub_cancel_left s.pos (span.stop - span.first)] at hreadNext
    have hnext := h.extract_eq hreadNext
    simp only [Option.map_some, State.shift, hlength, hend, hmarked, hnext]
    rw [apply_ite (Option.map _)]
    rfl

theorem corresponds_starTrials {body body' : State → List Trial} (greedy : Bool)
    (hinside : ∀ s, Inside text s → ∀ x ∈ body s, ∀ t, x.stop? = some t → Inside text t)
    (hinside' : ∀ s, Inside text' s → ∀ x ∈ body' s, ∀ t, x.stop? = some t → Inside text' t)
    (hbody : ∀ s, Inside text s → Inside text' (s.shift shift) →
      Corresponds shift W (body s) (body' (s.shift shift)))
    {fuel fuel' : Nat} {s : State} (hs : Inside text s) (hs' : Inside text' (s.shift shift))
    (hfuel : text.size < s.pos + fuel) (hfuel' : text'.size < s.pos + shift + fuel') :
    Corresponds shift W (starTrials greedy body fuel s)
      (starTrials greedy body' fuel' (s.shift shift)) := by
  induction fuel generalizing fuel' s with
  | zero =>
    have hpos := hs.pos_le
    omega
  | succ fuel ih =>
    have hpos' : s.pos + shift ≤ text'.size := hs'.pos_le
    obtain ⟨fuel', rfl⟩ := Nat.exists_eq_succ_of_ne_zero (by omega : fuel' ≠ 0)
    have hdone : Corresponds shift W [⟨some s, []⟩] [⟨some (s.shift shift), []⟩] :=
      .single fun _ => rfl
    have hmore : Corresponds shift W
        ((body s).flatMap (Trial.andThen fun t =>
          if s.pos < t.pos then starTrials greedy body fuel t else [⟨none, []⟩]))
        ((body' (s.shift shift)).flatMap (Trial.andThen fun t =>
          if (s.shift shift).pos < t.pos then starTrials greedy body' fuel' t
          else [⟨none, []⟩])) := by
      refine (hbody s hs hs').flatMap (fun t => ?_) fun x hx x' hx' t hend hend' => ?_
      · split
        · exact starTrials_ne_nil fuel t
        · exact List.cons_ne_nil _ _
      · by_cases hlt : s.pos < t.pos
        · have hlt' : (s.shift shift).pos < (t.shift shift).pos := Nat.add_lt_add_right hlt shift
          rw [if_pos hlt, if_pos hlt']
          exact ih (hinside s hs x hx t hend) (hinside' _ hs' x' hx' _ hend') (by omega) (by omega)
        · have hlt' : ¬ (s.shift shift).pos < (t.shift shift).pos :=
            fun h => hlt (Nat.lt_of_add_lt_add_right h)
          rw [if_neg hlt, if_neg hlt']
          exact .single fun _ => rfl
    rw [starTrials, starTrials]
    cases greedy with
    | true => exact hmore.append hdone
    | false => exact hdone.append hmore

theorem Agree.corresponds_trialsBack (h : Agree text text' shift W) {body body' : State → List Trial}
    (back : Nat)
    (hbody : ∀ s, Inside text s → Inside text' (s.shift shift) →
      Corresponds shift W (body s) (body' (s.shift shift)))
    {s : State} (hs : Inside text s) (hs' : Inside text' (s.shift shift)) :
    Corresponds shift W (trialsBack back body s) (trialsBack back body' (s.shift shift)) := by
  unfold trialsBack
  rw [State.pos_shift]
  by_cases hback : s.pos < back
  · rw [if_pos hback]
    by_cases hread : W 0
    · have hback' : s.pos + shift < back := by
        rw [h.start hread]
        exact hback
      rw [if_pos hback']
      exact .single fun _ => rfl
    · exact .of_beyond (List.cons_ne_nil _ _)
        (List.forall_mem_singleton.2 fun hx => hread (hx 0 (List.mem_singleton_self 0))) _
  · have hback' : ¬ s.pos + shift < back := by omega
    have hplace : s.pos + shift - back = s.pos - back + shift := by omega
    have hthere : ({ s.shift shift with pos := s.pos + shift - back } : State) =
        ({ s with pos := s.pos - back } : State).shift shift := by
      simp only [State.shift, hplace]
    rw [if_neg hback, if_neg hback', hthere]
    refine hbody _ ⟨Nat.le_trans (Nat.sub_le _ _) hs.pos_le, hs.stop_le⟩ ?_
    rw [← hthere]
    exact ⟨Nat.le_trans (Nat.sub_le _ _) hs'.pos_le, hs'.stop_le⟩

/-- What is tried to match a pattern in one text is tried in the other text as well, as far as the
texts have in common what is read. -/
theorem corresponds_trials (h : Agree text text' shift W) {p : Node} {s : State}
    (hs : Inside text s) (hs' : Inside text' (s.shift shift)) :
    Corresponds shift W (trials text p s) (trials text' p (s.shift shift)) := by
  induction p generalizing s with
  | empty => exact .single fun _ => rfl
  | chars set => exact .single fun hread => h.step? (hread _ (List.mem_singleton_self _)) set
  | assertion a =>
    refine .single fun hread => ?_
    have hholds : a.holds text' (s.shift shift).pos = a.holds text s.pos := h.holds hread
    dsimp only
    rw [hholds, apply_ite (Option.map (State.shift · shift))]
    rfl
  | seq p q ihp ihq =>
    refine (ihp hs hs').flatMap (trials_ne_nil q) fun x hx x' hx' t hend hend' => ?_
    exact ihq (hs.trial hx hend) (hs'.trial hx' hend')
  | alt p q ihp ihq => exact (ihp hs hs').append (ihq hs hs')
  | star greedy p ih =>
    have hpos := hs.pos_le
    have hpos' : s.pos + shift ≤ text'.size := hs'.pos_le
    refine corresponds_starTrials greedy (fun s hs x hx t => hs.trial hx)
      (fun s hs x hx t => hs.trial hx) (fun s => ih) hs hs' (by omega) ?_
    show text'.size < s.pos + shift + (text'.size + 1 - (s.pos + shift))
    omega
  | plus greedy p ih =>
    refine (ih hs hs').flatMap (fun t => ?_) fun x hx x' hx' t hend hend' => ?_
    · split
      · exact starTrials_ne_nil _ t
      · exact List.cons_ne_nil _ _
    · have ht := hs.trial hx hend
      have ht' := hs'.trial hx' hend'
      have hpos := ht.pos_le
      have hpos' : t.pos + shift ≤ text'.size := ht'.pos_le
      by_cases hlt : s.pos < t.pos
      · have hlt' : (s.shift shift).pos < (t.shift shift).pos := Nat.add_lt_add_right hlt shift
        rw [if_pos hlt, if_pos hlt']
        refine corresponds_starTrials greedy (fun s hs x hx t => hs.trial hx)
          (fun s hs x hx t => hs.trial hx) (fun s => ih) ht ht' (by omega) ?_
        show text'.size < t.pos + shift + (text'.size + 1 - (t.pos + shift))
        omega
      · have hlt' : ¬ (s.shift shift).pos < (t.shift shift).pos :=
          fun h => hlt (Nat.lt_of_add_lt_add_right h)
        rw [if_neg hlt, if_neg hlt']
        exact .single fun _ => rfl
  | group index p ih =>
    exact (ih hs hs').mapEnd fun t => (State.shift_mark t index s.pos t.pos shift).symm
  | look negative back p ih =>
    have hseen := h.corresponds_trialsBack back (fun s => ih) hs hs'
    unfold trials
    cases negative with
    | false => exact hseen.mapEnd fun t => rfl
    | true => exact .single hseen.stop?_lacking
  | backref index => exact .single h.repeat?
  | atomic p ih => exact .single (ih hs hs').stop?_first
  | keep => exact .single fun _ => rfl
  | searchStart =>
    by_cases hpos : s.pos ≤ s.origin
    · rw [trials, if_pos hpos]
      by_cases hread : W 0
      · have hpos' : (s.shift shift).pos ≤ (s.shift shift).origin := by
          rw [h.start hread]
          exact hpos
        rw [trials, if_pos hpos']
        exact .single fun _ => rfl
      · refine .of_beyond (List.cons_ne_nil _ _) (List.forall_mem_singleton.2 fun hx => ?_) _
        exact hread (hx 0 (List.mem_singleton_self 0))
    · have hpos' : ¬ (s.shift shift).pos ≤ (s.shift shift).origin := fun hle =>
        hpos (Nat.le_trans (Nat.le_add_right _ _) hle)
      rw [trials, if_neg hpos, trials, if_neg hpos']
      exact .single fun _ => rfl
  | groupSet index =>
    refine .single fun _ => ?_
    have hset : (s.shift shift).hasMatched index = s.hasMatched index := by
      rw [State.hasMatched, State.lookup_shift, Option.isSome_map]
      rfl
    dsimp only
    rw [hset, apply_ite (Option.map (State.shift · shift))]
    rfl
  | branch condition yes no ihc ihy ihn =>
    have hasked := ihc hs hs'
    unfold trials
    dsimp only
    by_cases hread : (Trial.first (trials text condition s)).Within W
    · rw [hasked.stop?_first hread]
      cases hend : (Trial.first (trials text condition s)).stop? with
      | none => exact (ihn hs hs').after hread _
      | some t =>
        have ht' := hs'.first ((hasked.stop?_first hread).trans (congrArg _ hend))
        exact (ihy (hs.first hend) ht').after hread _
    · cases (Trial.first (trials text condition s)).stop? with
      | none => exact .of_after hread (trials_ne_nil no s) _
      | some t => exact .of_after hread (trials_ne_nil yes t) _

/-- A trial that reads only what the texts have in common is a way to match the pattern in the other
text, too. -/
theorem exists_mem_ways_of_trial (h : Agree text text' shift W) {p : Node} {s : State}
    (hs : Inside text s) (hs' : Inside text' (s.shift shift)) {x : Trial} (hx : x ∈ trials text p s)
    (hwithin : x.Within W) (hend : x.stop?.isSome = true) :
    ∃ t, t ∈ ways text' p (s.shift shift) := by
  obtain ⟨t, ht⟩ := Option.isSome_iff_exists.1 hend
  obtain ⟨x', hx', hend'⟩ := (corresponds_trials h hs hs').exists_mem hx hwithin ht
  refine ⟨t.shift shift, ?_⟩
  rw [ways_eq_filterMap_stop? hs']
  exact List.mem_filterMap.2 ⟨x', hx', hend'⟩

end

end Banknote.Pattern
