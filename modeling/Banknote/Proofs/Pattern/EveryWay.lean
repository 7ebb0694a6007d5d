import Banknote.Proofs.Pattern.Rightmost
import Banknote.Proofs.Pattern.Settled

/-!
# Every way to match a pattern

What the backtracking engine matches in one way only is opened here again, so that all alternatives
and all numbers of rounds are among the ways that are listed.

* Opened patterns.  `Expr.opened` is the node of an expression without the parts that the engine
  matches in one way only.  Looks, conditions and atomic groups stay as the engine matches them.
* Simulations.  `SameWays`: every way through one node looks like some way through the other one.
* Opening.  `sameWays_opened`: as the engine matches it, a pattern leads to the same states, as far
  as the rest of the pattern can tell.
* Matches.  `exists_preferred_iff`: the engine finds a match at a place exactly if some way leads on
  from there.

`groups?_rightToLeft_everyWay` compares the match that is taken from the right with every way.  A
pattern is one that `Reader.readPattern` reads; what it refuses is named there.
-/

namespace Banknote.Pattern

open State (restrict restrict_mark_congr)

variable {text : Array Char} {refs : List Nat}

/-! ## Opened patterns -/

namespace Expr

mutual

/-- The node of an expression through which every way to match it leads, in a pattern that refers to
some groups. -/
def opened (referenced : List Nat) : Expr → Node
  | concat parts => openedSeq referenced parts
  | alternatives branches => openedAlt referenced branches
  | times body least most greedy =>
    repeated (body.opened referenced) (.star greedy (body.opened referenced)) greedy least most
  | group index body => .group index (body.opened referenced)
  | conditional condition yes no =>
    .branch (condition.tried referenced false) (yes.opened referenced) (no.opened referenced)
  | e => e.tried referenced false

/-- The sequence of the opened nodes of some expressions. -/
def openedSeq (referenced : List Nat) : List Expr → Node
  | [] => .empty
  | [e] => e.opened referenced
  | e :: rest => .seq (e.opened referenced) (openedSeq referenced rest)

/-- The choice between the opened nodes of some expressions. -/
def openedAlt (referenced : List Nat) : List Expr → Node
  | [] => .empty
  | [e] => e.opened referenced
  | e :: rest => .alt (e.opened referenced) (openedAlt referenced rest)

end

theorem openedSeq_eq_plainSeq {parts : List Expr} (h : ∀ e ∈ parts, e.opened refs = e.plain) :
    openedSeq refs parts = plainSeq parts := by
  induction parts with
  | nil => rfl
  | cons e rest ih =>
    obtain ⟨he, hrest⟩ := List.forall_mem_cons.1 h
    cases rest with
    | nil => exact he
    | cons e' rest => rw [openedSeq, plainSeq, he, ih hrest] <;> exact fun h => by cases h

theorem openedAlt_eq_plainAlt {branches : List Expr} (h : ∀ e ∈ branches, e.opened refs = e.plain) :
    openedAlt refs branches = plainAlt branches := by
  induction branches with
  | nil => rfl
  | cons e rest ih =>
    obtain ⟨he, hrest⟩ := List.forall_mem_cons.1 h
    cases rest with
    | nil => exact he
    | cons e' rest => rw [openedAlt, plainAlt, he, ih hrest] <;> exact fun h => by cases h

theorem isSome_width?_of_mem {parts : List Expr} {w : Nat} (h : totalWidth parts = some w)
    {e : Expr} (he : e ∈ parts) : e.width?.isSome = true := by
  induction parts generalizing w with
  | nil => cases he
  | cons e' rest ih =>
    obtain ⟨first, total, hfirst, htotal, _⟩ := totalWidth_cons h
    rcases List.mem_cons.1 he with rfl | he
    · exact Option.isSome_iff_exists.2 ⟨first, hfirst⟩
    · exact ih htotal he

/-- A settled part is matched as it is for the linear engine once it is opened. -/
theorem Built.opened_eq_plain {engine : Engine} {features : Feature → Prop}
    {sets refers : Nat → Prop} {e : Expr}
    (h : e.Built engine features sets refers) (hsettled : e.isSettled refs = true) :
    e.opened refs = e.plain := by
  induction h with
  | empty => rfl
  | chars set => rfl
  | assertion a => rfl
  | concat _ ih =>
    obtain ⟨hself, hwidth⟩ := Bool.and_eq_true_iff.1 hsettled
    obtain ⟨w, hw⟩ := Option.isSome_iff_exists.1 hwidth
    exact openedSeq_eq_plainSeq fun e he => ih e he (Bool.and_eq_true_iff.2
      ⟨isSelfContained_of_mem hself he, isSome_width?_of_mem hw he⟩)
  | alternatives _ ih =>
    obtain ⟨hself, hwidth⟩ := Bool.and_eq_true_iff.1 hsettled
    obtain ⟨w, hw⟩ := Option.isSome_iff_exists.1 hwidth
    exact openedAlt_eq_plainAlt fun e he => ih e he (Bool.and_eq_true_iff.2
      ⟨isSelfContained_of_mem hself he,
        Option.isSome_iff_exists.2 ⟨w, width?_of_commonWidth hw e he⟩⟩)
  | times _ least most greedy ih =>
    obtain ⟨hself, hwidth⟩ := Bool.and_eq_true_iff.1 hsettled
    -- There is a width only for a fixed number of rounds, so there is no star.
    rw [width?] at hwidth
    split at hwidth
    · rename_i hmost
      subst hmost
      rw [Option.isSome_map] at hwidth
      have hbody := ih (Bool.and_eq_true_iff.2 ⟨hself, hwidth⟩)
      unfold opened plain
      simp only [hbody, Option.isNone_some, Bool.and_false, Bool.false_eq_true, if_false]
    · cases hwidth
  | group _ _ ih =>
    obtain ⟨hself, hwidth⟩ := Bool.and_eq_true_iff.1 hsettled
    have hbody := ih (Bool.and_eq_true_iff.2 ⟨(Bool.and_eq_true_iff.1 hself).2, hwidth⟩)
    unfold opened plain
    rw [hbody]
  | ahead _ _ _ _ => cases hsettled
  | behind _ _ _ _ => cases hsettled
  | backref _ _ => cases hsettled
  | atomic _ _ _ => cases hsettled
  | keep _ _ => cases hsettled
  | searchStart _ _ => cases hsettled
  | groupSet _ _ => cases hsettled
  | conditional _ _ _ _ _ _ _ => cases hsettled

end Expr

/-! ## Simulations -/

/-- Every way of one kind looks like some way of the other kind, from states that look alike. -/
def Simulates (refs : List Nat) (f g : State → List State) : Prop :=
  ∀ s s' t : State, s.restrict refs = s'.restrict refs → t ∈ f s →
    ∃ t' ∈ g s', t.restrict refs = t'.restrict refs

namespace Simulates

variable {f g f' g' : State → List State}

theorem of_respects (h : Respects refs f) : Simulates refs f f := by
  intro s s' t hs ht
  have hmem : t.restrict refs ∈ (f s').map (restrict refs) := by
    rw [← h s s' hs]
    exact List.mem_map_of_mem ht
  obtain ⟨t', ht', heq⟩ := List.mem_map.1 hmem
  exact ⟨t', ht', heq.symm⟩

theorem flatMap (hf : Simulates refs f f') (hg : Simulates refs g g') :
    Simulates refs (fun s => (f s).flatMap g) fun s => (f' s).flatMap g' := by
  intro s s' u hs hu
  obtain ⟨t, ht, hu⟩ := List.mem_flatMap.1 hu
  obtain ⟨t', ht', heq⟩ := hf s s' t hs ht
  obtain ⟨u', hu', heq'⟩ := hg t t' u heq hu
  exact ⟨u', List.mem_flatMap.2 ⟨t', ht', hu'⟩, heq'⟩

theorem append (hf : Simulates refs f f') (hg : Simulates refs g g') :
    Simulates refs (fun s => f s ++ g s) fun s => f' s ++ g' s := by
  intro s s' t hs ht
  rcases List.mem_append.1 ht with ht | ht
  · obtain ⟨t', ht', heq⟩ := hf s s' t hs ht
    exact ⟨t', List.mem_append_left _ ht', heq⟩
  · obtain ⟨t', ht', heq⟩ := hg s s' t hs ht
    exact ⟨t', List.mem_append_right _ ht', heq⟩

theorem starWays (hf : Simulates refs f f') (greedy : Bool) (fuel : Nat) :
    Simulates refs (starWays greedy f fuel) (starWays greedy f' fuel) := by
  induction fuel with
  | zero =>
    intro s s' t hs ht
    obtain rfl := List.mem_singleton.1 ht
    exact ⟨s', List.mem_singleton_self _, hs⟩
  | succ fuel ih =>
    intro s s' t hs ht
    rcases mem_starWays_succ.1 ht with rfl | ⟨u, hu, hpos, ht⟩
    · exact ⟨s', mem_starWays_succ.2 (.inl rfl), hs⟩
    · obtain ⟨u', hu', heq⟩ := hf s s' u hs hu
      obtain ⟨t', ht', heq'⟩ := ih u u' t heq ht
      have hpos' : s'.pos < u'.pos := by
        rwa [← State.pos_eq_of_restrict_eq hs, ← State.pos_eq_of_restrict_eq heq]
      exact ⟨t', mem_starWays_succ.2 (.inr ⟨u', hu', hpos', ht'⟩), heq'⟩

end Simulates

/-- Two nodes lead to states that look alike. -/
structure SameWays (text : Array Char) (refs : List Nat) (p q : Node) : Prop where
  simulates : Simulates refs (ways text p) (ways text q)
  simulated : Simulates refs (ways text q) (ways text p)

namespace SameWays

variable {p q p' q' : Node}

theorem of_respects (h : Respects refs (ways text p)) : SameWays text refs p p :=
  ⟨.of_respects h, .of_respects h⟩

theorem empty : SameWays text refs .empty .empty :=
  .of_respects (.singleton fun _ _ h => h)

theorem seq (hp : SameWays text refs p p') (hq : SameWays text refs q q') :
    SameWays text refs (.seq p q) (.seq p' q') :=
  ⟨hp.simulates.flatMap hq.simulates, hp.simulated.flatMap hq.simulated⟩

/-- Nothing may follow. -/
theorem seq_empty (hp : SameWays text refs p p') : SameWays text refs (.seq p .empty) p' := by
  have hways : ways text (.seq p .empty) = ways text p := by
    funext s
    exact List.flatMap_singleton' (ways text p s)
  constructor
  · rw [hways]
    exact hp.simulates
  · rw [hways]
    exact hp.simulated

theorem alt (hp : SameWays text refs p p') (hq : SameWays text refs q q') :
    SameWays text refs (.alt p q) (.alt p' q') :=
  ⟨hp.simulates.append hq.simulates, hp.simulated.append hq.simulated⟩

theorem star (hp : SameWays text refs p p') (greedy : Bool) :
    SameWays text refs (.star greedy p) (.star greedy p') := by
  constructor
  · intro s s' t hs ht
    unfold ways at ht ⊢
    rw [← State.pos_eq_of_restrict_eq hs]
    exact hp.simulates.starWays greedy _ s s' t hs ht
  · intro s s' t hs ht
    unfold ways at ht ⊢
    rw [← State.pos_eq_of_restrict_eq hs]
    exact hp.simulated.starWays greedy _ s s' t hs ht

theorem group (hp : SameWays text refs p p') (index : Nat) :
    SameWays text refs (.group index p) (.group index p') := by
  have hmark : ∀ {f g : State → List State}, Simulates refs f g →
      Simulates refs (fun s => (f s).map fun t => t.mark index ⟨s.pos, t.pos⟩)
        fun s => (g s).map fun t => t.mark index ⟨s.pos, t.pos⟩ := by
    intro f g h s s' u hs hu
    obtain ⟨t, ht, rfl⟩ := List.mem_map.1 hu
    obtain ⟨t', ht', heq⟩ := h s s' t hs ht
    refine ⟨_, List.mem_map_of_mem ht', ?_⟩
    rw [State.pos_eq_of_restrict_eq hs, State.pos_eq_of_restrict_eq heq]
    exact restrict_mark_congr heq index _
  exact ⟨hmark hp.simulates, hmark hp.simulated⟩

/-- The first way of a condition looks the same, so the same branch is taken. -/
theorem branch {c r r' : Node} (hc : Respects refs (ways text c)) (hq : SameWays text refs q q')
    (hr : SameWays text refs r r') : SameWays text refs (.branch c q r) (.branch c q' r') := by
  have hbranch : ∀ {q r q' r' : Node}, Simulates refs (ways text q) (ways text q') →
      Simulates refs (ways text r) (ways text r') →
      Simulates refs (ways text (.branch c q r)) (ways text (.branch c q' r')) := by
    intro q r q' r' hq hr s s' t hs ht
    have hfirst := hc.head? hs
    rw [ways] at ht ⊢
    cases hseen : (ways text c s).head? with
    | none =>
      rw [hseen] at hfirst ht
      rw [Option.map_eq_none_iff.1 hfirst.symm]
      exact hr s s' t hs ht
    | some u =>
      rw [hseen] at hfirst ht
      obtain ⟨u', hu', heq⟩ := Option.map_eq_some_iff.1 hfirst.symm
      rw [hu']
      exact hq u u' t heq.symm ht
  exact ⟨hbranch hq.simulates hr.simulates, hbranch hq.simulated hr.simulated⟩

/-- If all ways through a node look alike, the first one stands for all. -/
theorem atomic (hp : SameWays text refs p p')
    (hunique : ∀ s t t', t ∈ ways text p s → t' ∈ ways text p s →
      t.restrict refs = t'.restrict refs) : SameWays text refs (.atomic p) p' := by
  constructor
  · intro s s' t hs ht
    exact hp.simulates s s' t hs (List.mem_of_mem_head? (Option.mem_toList.1 ht))
  · intro s s' t hs ht
    obtain ⟨t', ht', heq⟩ := hp.simulated s s' t hs ht
    obtain ⟨first, hfirst⟩ : ∃ first, (ways text p s').head? = some first := by
      cases hways : ways text p s' with
      | nil =>
        rw [hways] at ht'
        cases ht'
      | cons first rest => exact ⟨first, rfl⟩
    exact ⟨first, Option.mem_toList.2 hfirst,
      heq.trans (hunique s' t' first ht' (List.mem_of_mem_head? hfirst))⟩

theorem copies (hp : SameWays text refs p p') (hq : SameWays text refs q q') (n : Nat) :
    SameWays text refs (p.copies q n) (p'.copies q' n) := by
  induction n with
  | zero => exact hq
  | succ n ih => exact hp.seq ih

theorem optional (hp : SameWays text refs p p') (greedy : Bool) :
    SameWays text refs (Node.optional greedy p) (Node.optional greedy p') := by
  cases greedy with
  | true => exact hp.alt empty
  | false => exact empty.alt hp

theorem atMost (hp : SameWays text refs p p') (greedy : Bool) (n : Nat) :
    SameWays text refs (p.atMost greedy n) (p'.atMost greedy n) := by
  induction n with
  | zero => exact empty
  | succ n ih =>
    cases n with
    | zero => exact hp.optional greedy
    | succ n => exact (hp.seq ih).optional greedy

theorem repeated (hp : SameWays text refs p p') (greedy : Bool) (least : Nat)
    (most : Option Nat) :
    SameWays text refs (Expr.repeated p (.star greedy p) greedy least most)
      (Expr.repeated p' (.star greedy p') greedy least most) := by
  unfold Expr.repeated
  split
  · exact hp.copies (hp.star greedy) least
  · split
    · split
      · exact empty
      · exact hp.copies hp _
    · exact hp.copies (hp.atMost greedy _) least

end SameWays

/-! ## Opening -/

namespace Expr

variable {features : Feature → Prop} {sets : Nat → Prop}

theorem sameWays_triedAlt {branches : List Expr}
    (h : ∀ e ∈ branches, SameWays text refs (e.tried refs false) (e.opened refs)) :
    SameWays text refs (triedAlt refs false branches) (openedAlt refs branches) := by
  induction branches with
  | nil => exact .empty
  | cons e rest ih =>
    obtain ⟨he, hrest⟩ := List.forall_mem_cons.1 h
    cases rest with
    | nil => exact he
    | cons e' rest => exact he.alt (ih hrest)

/-- A part and what follows it are opened on their own. -/
theorem sameWays_openedSeq_cons {p q : Node} {e : Expr} {rest : List Expr}
    (he : SameWays text refs p (e.opened refs))
    (hrest : SameWays text refs q (openedSeq refs rest)) (hnil : rest = [] → q = .empty) :
    SameWays text refs (.seq p q) (openedSeq refs (e :: rest)) := by
  cases rest with
  | nil =>
    obtain rfl := hnil rfl
    exact he.seq_empty
  | cons e' rest => exact he.seq hrest

/-- A settled part may be matched in one way only. -/
theorem Built.sameWays_of_isSettled {e : Expr} (h : e.Built .backtracking features sets (· ∈ refs))
    (hsettled : e.isSettled refs = true) :
    SameWays text refs (.atomic e.plain) (e.opened refs) := by
  rw [h.opened_eq_plain hsettled]
  have hrespects : Respects refs (ways text e.plain) :=
    (inherited_respects .backtracking features sets).plain h
  refine (SameWays.of_respects hrespects).atomic fun s t t' ht ht' => ?_
  exact h.restrict_eq_of_isSettled hsettled (leads_of_mem_ways ht) (leads_of_mem_ways ht')

/-- Settled parts are one settled part. -/
theorem isSettled_concat {parts : List Expr} (h : endsSettled refs false parts = true) :
    (concat parts).isSettled refs = true := by
  have hall : ∀ e ∈ parts, e.isSettled refs = true := by
    rw [endsSettled, List.all_eq_true] at h
    exact h
  have hself : allSelfContained refs parts = true ∧ (totalWidth parts).isSome = true := by
    clear h
    induction parts with
    | nil => exact ⟨rfl, rfl⟩
    | cons e rest ih =>
      obtain ⟨he, hrest⟩ := List.forall_mem_cons.1 hall
      obtain ⟨hself, hwidth⟩ := Bool.and_eq_true_iff.1 he
      obtain ⟨hselfs, hwidths⟩ := ih hrest
      obtain ⟨first, hfirst⟩ := Option.isSome_iff_exists.1 hwidth
      obtain ⟨total, htotal⟩ := Option.isSome_iff_exists.1 hwidths
      refine ⟨Bool.and_eq_true_iff.2 ⟨hself, hselfs⟩,
        Option.isSome_iff_exists.2 ⟨first + total, ?_⟩⟩
      rw [totalWidth] at htotal ⊢
      rw [widths, List.foldr_cons, hfirst, htotal]
      rfl
  exact Bool.and_eq_true_iff.2 hself

theorem sameWays_triedSeq {parts : List Expr}
    (hparts : ∀ e ∈ parts, e.Built .backtracking features sets (· ∈ refs))
    (h : ∀ e ∈ parts, SameWays text refs (e.tried refs false) (e.opened refs)) (first : Bool) :
    SameWays text refs (triedSeq refs false first parts) (openedSeq refs parts) := by
  induction parts generalizing first with
  | nil => exact .empty
  | cons e rest ih =>
    have hnil : ∀ first, rest = [] → triedSeq refs false first rest = .empty := by
      rintro first rfl
      rfl
    obtain ⟨he, hrest⟩ := List.forall_mem_cons.1 h
    obtain ⟨hbuilt, hbuilts⟩ := List.forall_mem_cons.1 hparts
    unfold triedSeq
    split
    · rename_i hends
      have hconcat : (concat (e :: rest)).Built .backtracking features sets (· ∈ refs) :=
        .concat hparts
      exact hconcat.sameWays_of_isSettled (isSettled_concat hends)
    · split
      · rename_i hfirst
        have hsettled := (Bool.and_eq_true_iff.1 hfirst).2
        exact sameWays_openedSeq_cons (hbuilt.sameWays_of_isSettled hsettled)
          (ih hbuilts hrest true) (hnil true)
      · exact sameWays_openedSeq_cons he (ih hbuilts hrest false) (hnil false)

/-- As the engine matches it, an expression leads to states that look like those to which all ways
lead. -/
theorem Built.sameWays_opened {e : Expr} (h : e.Built .backtracking features sets (· ∈ refs)) :
    SameWays text refs (e.tried refs false) (e.opened refs) := by
  -- Looks, references and atomic groups stay as they are.
  have hsame : ∀ {e : Expr}, e.Built .backtracking features sets (· ∈ refs) →
      SameWays text refs (e.tried refs false) (e.tried refs false) := fun he =>
    .of_respects ((inherited_respects .backtracking features sets).tried rfl refs he false)
  induction h with
  | empty => exact hsame .empty
  | chars set => exact hsame (.chars set)
  | assertion a => exact hsame (.assertion a)
  | concat hparts ih =>
    unfold tried opened
    exact sameWays_triedSeq hparts ih true
  | alternatives _ ih =>
    unfold tried opened
    exact sameWays_triedAlt ih
  | times _ least most greedy ih =>
    unfold tried opened
    exact ih.repeated greedy least most
  | @group index _ _ _ ih =>
    unfold tried opened
    exact ih.group index
  | ahead hengine negative hbody _ => exact hsame (.ahead hengine negative hbody)
  | behind hengine negative hbody _ => exact hsame (.behind hengine negative hbody)
  | backref hengine hindex => exact hsame (.backref hengine hindex)
  | atomic hengine hbody _ => exact hsame (.atomic hengine hbody)
  | keep hengine hfeature => exact hsame (.keep hengine hfeature)
  | searchStart hengine hfeature => exact hsame (.searchStart hengine hfeature)
  | groupSet hengine hindex => exact hsame (.groupSet hengine hindex)
  | conditional _ hc _ _ _ ihy ihn =>
    unfold tried opened
    exact .branch ((inherited_respects .backtracking features sets).tried rfl refs hc false) ihy ihn

end Expr

/-! ## Matches -/

/-- The node of a pattern through which every way to match it leads. -/
def Reader.Reading.everyWay (reading : Reader.Reading) (engine : Engine) : Node :=
  if engine = .linear ∨ reading.expr.isPlain then reading.expr.plain
  else reading.expr.opened reading.expr.references

theorem sameWays_compile {engine : Engine} {source : List Char} {reading : Reader.Reading}
    {program : Program} (hread : Reader.readPattern engine source = some reading)
    (hprogram : Program.compile? engine source = some program) :
    SameWays text reading.expr.references program.node (reading.everyWay engine) := by
  have hbuilt : reading.expr.Built engine (fun _ => True) (UpTo reading.groups)
      (· ∈ reading.expr.references) :=
    (Reader.built_readPattern hread).of_references fun _ h => h
  rw [Program.compile?, hread] at hprogram
  cases hprogram
  unfold Reader.Reading.everyWay
  dsimp only
  split
  · exact .of_respects ((inherited_respects engine _ _).plain hbuilt)
  · rename_i hengine
    cases engine with
    | linear => exact absurd (.inl rfl) hengine
    | backtracking => exact hbuilt.sameWays_opened

namespace Matcher

variable {m : Matcher} {source : String} {reading : Reader.Reading}

/-- The engine prefers some match at a place exactly if some way leads on from there. -/
theorem exists_preferred_iff (hread : Reader.readPattern m.engine source.toList = some reading)
    (hprogram : Program.compile? m.engine source.toList = some m.program) {place origin : Nat} :
    (∃ s, m.preferred? text place origin = some s) ↔
      ∃ t, t ∈ ways text (reading.everyWay m.engine) (.init place origin) := by
  have hsame : SameWays text _ m.program.node (reading.everyWay m.engine) :=
    sameWays_compile hread hprogram
  constructor
  · rintro ⟨s, hs⟩
    obtain ⟨t, ht, _⟩ := hsame.simulates _ _ s rfl (List.mem_of_mem_head? hs)
    exact ⟨t, ht⟩
  · rintro ⟨t, ht⟩
    obtain ⟨s, hs, _⟩ := hsame.simulated _ _ t rfl ht
    exact Option.isSome_iff_exists.1 (List.isSome_head?.2 (List.ne_nil_of_mem hs))

/-- From the right, the match that is taken is one of all ways to match the pattern.  A way that
ends further right, or ends there and starts further left, starts at a place where the engine
prefers another match, one that ends earlier than that way; or else the pattern asks where the search
started, and the scan has stopped before that place.  The ways from a place are those of a search that
starts there. -/
theorem groups?_rightToLeft_everyWay (hm : backtracking? source .rightToLeft = some m)
    (hread : Reader.readPattern .backtracking source.toList = some reading)
    (hkeep : reading.expr.uses .movedStart = false) {text : String} {groups : List String}
    (hgroups : m.groups? text = some groups) :
    ∃ place s, m.match? text.toList.toArray = some s ∧
      groups = (List.range m.groupCount).map (groupText text.toList.toArray s) ∧
      place ≤ text.length ∧ s.start = place ∧
      (∃ t ∈ ways text.toList.toArray (reading.everyWay .backtracking) (.init place),
        t.pos = s.pos) ∧
      ∀ place' ≤ text.length,
        ∀ t ∈ ways text.toList.toArray (reading.everyWay .backtracking) (.init place'),
          s.pos < t.pos ∨ t.pos = s.pos ∧ place' < place →
            (∃ s', m.preferred? text.toList.toArray place' = some s' ∧ s'.pos < t.pos) ∨
              reading.expr.uses .searchStart = true ∧
                ∃ stop ≤ place', m.search text.toList.toArray stop = .nothing := by
  obtain ⟨hengine, hdirection, hprogram⟩ := backtracking?_eq_some hm
  have hstart := uses_compile hread hprogram hkeep
  have hsize := size_toArray text
  obtain ⟨s, hs, rfl⟩ := Option.map_eq_some_iff.1 hgroups
  have hfound : m.match? text.toList.toArray ≠ none := by
    rw [hs]
    exact Option.some_ne_none s
  obtain ⟨stop, hstop, hscanned⟩ :=
    scanned_match? hengine hdirection hstart fun hnone => absurd hnone hfound
  rw [hs] at hscanned
  obtain ⟨place, hplace⟩ := hscanned
  have hle := hstop.le
  rw [← hengine] at hread hprogram ⊢
  refine ⟨place, s, hs, rfl, by have := hplace.lt_stop; omega,
    start_of_preferred hstart hplace.preferred, ?_, fun place' hle' t ht hbetter => ?_⟩
  · have hsame : SameWays text.toList.toArray _ m.program.node (reading.everyWay m.engine) :=
      sameWays_compile hread hprogram
    obtain ⟨t, ht, heq⟩ := hsame.simulates _ _ s rfl (List.mem_of_mem_head? hplace.preferred)
    exact ⟨t, ht, (State.pos_eq_of_restrict_eq heq).symm⟩
  · obtain ⟨s', hs'⟩ := (exists_preferred_iff hread hprogram).2 ⟨t, ht⟩
    rcases Nat.lt_or_ge place' stop with hlt | hge
    · have hbest := hplace.best place' s' hlt hs'
      exact .inl ⟨s', hs', by omega⟩
    · -- Behind the place where the scan stopped there is a match only if the pattern asks.
      refine .inr ⟨?_, stop, hge, hstop.nothing (by omega)⟩
      by_contra hnot
      have hasks := uses_compile hread hprogram (Bool.eq_false_iff.2 hnot)
      rw [none_of_stopsAt hengine hasks hstop hge (hsize.symm ▸ hle')] at hs'
      cases hs'

/-- At each place where a match may start there are two ways, to one five and to two, and the engine
prefers one five. -/
theorem groups?_rightToLeft_everyWay_fives :
    ∃ m reading, backtracking? "(?<!x)(5|55)" .rightToLeft = some m ∧
      Reader.readPattern .backtracking "(?<!x)(5|55)".toList = some reading ∧
      m.groups? "55x55" = some ["5", "5"] ∧
      ∃ place s, m.match? "55x55".toList.toArray = some s ∧ s.start = place ∧
        ∀ place' ≤ 5,
          ∀ t ∈ ways "55x55".toList.toArray (reading.everyWay .backtracking) (.init place'),
            s.pos < t.pos ∨ t.pos = s.pos ∧ place' < place →
              (∃ s', m.preferred? "55x55".toList.toArray place' = some s' ∧ s'.pos < t.pos) ∨
                reading.expr.uses .searchStart = true ∧
                  ∃ stop ≤ place', m.search "55x55".toList.toArray stop = .nothing := by
  have hcompiles : (backtracking? "(?<!x)(5|55)" .rightToLeft).any
      (·.groups? "55x55" == some ["5", "5"]) = true := by decide +kernel
  have hreads : (Reader.readPattern .backtracking "(?<!x)(5|55)".toList).any
      (fun reading => !reading.expr.uses .movedStart) = true := by decide +kernel
  obtain ⟨m, hm, hgroups⟩ := (Option.any_eq_true _ _).1 hcompiles
  obtain ⟨reading, hread, hkeep⟩ := (Option.any_eq_true _ _).1 hreads
  have hgroups : m.groups? "55x55" = some ["5", "5"] := eq_of_beq hgroups
  obtain ⟨place, s, hs, _, _, hplace, _, hways⟩ :=
    groups?_rightToLeft_everyWay hm hread (by simpa using hkeep) hgroups
  exact ⟨m, reading, hm, hread, hgroups, place, s, hs, hplace, hways⟩

/-- The engine prefers the shorter of two serial numbers if its branch comes first, and the match
that is taken is no longer than that. -/
theorem groups?_rightToLeft_truncated :
    ∃ m reading s t, backtracking? "[A-Z]{2}[0-9]{2}|[A-Z]{2}[0-9]{3}" .rightToLeft = some m ∧
      Reader.readPattern .backtracking "[A-Z]{2}[0-9]{2}|[A-Z]{2}[0-9]{3}".toList =
        some reading ∧
      reading.expr.uses .movedStart = false ∧ m.groups? "AB123" = some ["AB12"] ∧
      m.match? "AB123".toList.toArray = some s ∧
      t ∈ ways "AB123".toList.toArray (reading.everyWay .backtracking) (.init 0) ∧
      s.pos < t.pos := by
  have hcheck : (backtracking? "[A-Z]{2}[0-9]{2}|[A-Z]{2}[0-9]{3}" .rightToLeft).any (fun m =>
      (Reader.readPattern .backtracking "[A-Z]{2}[0-9]{2}|[A-Z]{2}[0-9]{3}".toList).any
        fun reading => !reading.expr.uses .movedStart && (m.groups? "AB123" == some ["AB12"] &&
          (m.match? "AB123".toList.toArray).any fun s =>
            (ways "AB123".toList.toArray (reading.everyWay .backtracking) (.init 0)).any
              fun t => s.pos < t.pos)) = true := by
    decide +kernel
  obtain ⟨m, hm, hcheck⟩ := (Option.any_eq_true _ _).1 hcheck
  obtain ⟨reading, hread, hcheck⟩ := (Option.any_eq_true _ _).1 hcheck
  obtain ⟨hkeep, hcheck⟩ := Bool.and_eq_true_iff.1 hcheck
  obtain ⟨hgroups, hcheck⟩ := Bool.and_eq_true_iff.1 hcheck
  obtain ⟨s, hs, hcheck⟩ := (Option.any_eq_true _ _).1 hcheck
  obtain ⟨t, ht, hpos⟩ := List.any_eq_true.1 hcheck
  have hstart : reading.expr.uses .movedStart = false := by simpa using hkeep
  have htaken : m.groups? "AB123" = some ["AB12"] := eq_of_beq hgroups
  exact ⟨m, reading, s, t, hm, hread, hstart, htaken, hs, ht, of_decide_eq_true hpos⟩

end Matcher

end Banknote.Pattern
