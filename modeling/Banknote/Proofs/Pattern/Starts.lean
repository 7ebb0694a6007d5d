import Banknote.Proofs.Pattern.Reading
import Banknote.Proofs.Pattern.Ways

/-!
# Where a match starts, and where its search does

A pattern without `\K` leaves the reported start of a match where the match was tried.  A pattern
without `\G` is matched in the same ways by every search, wherever the search started.

* Features.  `Node.uses` tells which of the two a node uses.  `uses_compile`: the program that is
  matched does not use what the pattern that was read does not use.
* Reported starts.  `Leads.start_eq`: no way to match moves the start if the pattern does not.
* Searches.  `State.searchedFrom` is a state in a search that started elsewhere.
  `Leads.searchedFrom` and `ways_searchedFrom`: the ways from there are the same ones if the pattern
  does not ask for the start of the search.
-/

namespace Banknote.Pattern

variable {text : Array Char}

/-! ## Features -/

/-- Whether a node uses a feature. -/
def Node.uses (f : Feature) : Node → Bool
  | .seq p q | .alt p q => p.uses f || q.uses f
  | .star _ p | .plus _ p | .group _ p | .look _ _ p | .atomic p => p.uses f
  | .branch p q r => p.uses f || (q.uses f || r.uses f)
  | .keep => f == .movedStart
  | .searchStart => f == .searchStart
  | .empty | .chars _ | .assertion _ | .backref _ | .groupSet _ => false

mutual

/-- Whether an expression uses a feature. -/
def Expr.uses (f : Feature) : Expr → Bool
  | .concat parts => Expr.anyUses f parts
  | .alternatives branches => Expr.anyUses f branches
  | .times body _ _ _ | .group _ body | .ahead _ body | .behind _ body | .atomic body => body.uses f
  | .conditional condition yes no => condition.uses f || (yes.uses f || no.uses f)
  | .keep => f == .movedStart
  | .searchStart => f == .searchStart
  | .empty | .chars _ | .assertion _ | .backref _ | .groupSet _ => false

/-- Whether one of several expressions uses a feature. -/
def Expr.anyUses (f : Feature) : List Expr → Bool
  | [] => false
  | e :: rest => e.uses f || Expr.anyUses f rest

end

section

variable {f : Feature} {engine : Engine} {features : Feature → Prop} {sets refers : Nat → Prop}

theorem Expr.uses_of_mem {es : List Expr} (h : Expr.anyUses f es = false) {e : Expr}
    (he : e ∈ es) : e.uses f = false := by
  induction es with
  | nil => cases he
  | cons e' rest ih =>
    obtain ⟨hfirst, hrest⟩ := Bool.or_eq_false_iff.1 h
    rcases List.mem_cons.1 he with rfl | he
    · exact hfirst
    · exact ih hrest he

/-- A pattern that does not use a feature is made without it. -/
theorem Expr.Built.of_uses {e : Expr} (h : e.Built engine features sets refers)
    (huses : e.uses f = false) : e.Built engine (· ≠ f) sets refers := by
  induction h with
  | empty => exact .empty
  | chars set => exact .chars set
  | assertion a => exact .assertion a
  | concat _ ih => exact .concat fun e he => ih e he (uses_of_mem huses he)
  | alternatives _ ih => exact .alternatives fun e he => ih e he (uses_of_mem huses he)
  | times _ least most greedy ih => exact .times (ih huses) least most greedy
  | group hindex _ ih => exact .group hindex (ih huses)
  | ahead hengine negative _ ih => exact .ahead hengine negative (ih huses)
  | behind hengine negative _ ih => exact .behind hengine negative (ih huses)
  | backref hengine hindex => exact .backref hengine hindex
  | atomic hengine _ ih => exact .atomic hengine (ih huses)
  | keep hengine _ => exact .keep hengine (ne_of_beq_false huses).symm
  | searchStart hengine _ => exact .searchStart hengine (ne_of_beq_false huses).symm
  | groupSet hengine hindex => exact .groupSet hengine hindex
  | conditional hengine _ _ _ ihc ihy ihn =>
    obtain ⟨hc, hrest⟩ := Bool.or_eq_false_iff.1 huses
    obtain ⟨hy, hn⟩ := Bool.or_eq_false_iff.1 hrest
    exact .conditional hengine (ihc hc) (ihy hy) (ihn hn)

theorem inherited_uses (f : Feature) (engine : Engine) (sets refers : Nat → Prop) :
    Node.Inherited engine (· ≠ f) sets refers fun p => p.uses f = false where
  empty := rfl
  chars _ := rfl
  assertion _ := rfl
  seq hp hq := Bool.or_eq_false_iff.2 ⟨hp, hq⟩
  alt hp hq := Bool.or_eq_false_iff.2 ⟨hp, hq⟩
  star _ _ hp := hp
  plus _ _ hp := hp
  group _ hp := hp
  look _ _ _ _ hp := hp
  backref _ _ _ := rfl
  atomic _ _ hp := hp
  keep _ hfeature := beq_false_of_ne hfeature.symm
  searchStart _ hfeature := beq_false_of_ne hfeature.symm
  groupSet _ _ _ := rfl
  branch _ _ _ _ hp hq hr := Bool.or_eq_false_iff.2 ⟨hp, Bool.or_eq_false_iff.2 ⟨hq, hr⟩⟩

/-- A program does not use what the pattern that was read does not use. -/
theorem uses_compile {source : List Char} {reading : Reader.Reading} {program : Program}
    (hread : Reader.readPattern engine source = some reading)
    (hprogram : Program.compile? engine source = some program)
    (huses : reading.expr.uses f = false) : program.node.uses f = false := by
  have hbuilt := (Reader.built_readPattern hread).of_uses huses
  exact inherited_compile hread hprogram hbuilt (inherited_uses f _ _ _)

theorem Node.uses_of_isRegular {p : Node} (hp : p.isRegular = true) : p.uses f = false := by
  induction p with
  | empty => rfl
  | chars _ => rfl
  | assertion _ => rfl
  | seq p q ihp ihq =>
    obtain ⟨hp, hq⟩ := Bool.and_eq_true_iff.1 hp
    exact Bool.or_eq_false_iff.2 ⟨ihp hp, ihq hq⟩
  | alt p q ihp ihq =>
    obtain ⟨hp, hq⟩ := Bool.and_eq_true_iff.1 hp
    exact Bool.or_eq_false_iff.2 ⟨ihp hp, ihq hq⟩
  | star _ p ih => exact ih hp
  | plus _ p ih => exact ih hp
  | group _ p ih => exact ih hp
  | look _ _ _ => cases hp
  | backref _ => cases hp
  | atomic _ => cases hp
  | keep => cases hp
  | searchStart => cases hp
  | groupSet _ => cases hp
  | branch _ _ _ => cases hp

end

/-! ## Reported starts -/

/-- The reported start stays if the pattern does not move it. -/
theorem Leads.start_eq {p : Node} {s t : State} (h : Leads text p s t)
    (hp : p.uses .movedStart = false) : t.start = s.start := by
  induction h with
  | empty => rfl
  | chars hstep =>
    obtain ⟨_, _, _, rfl⟩ := step?_eq_some hstep
    rfl
  | assertion _ => rfl
  | seq _ _ ihp ihq =>
    obtain ⟨hp, hq⟩ := Bool.or_eq_false_iff.1 hp
    exact (ihq hq).trans (ihp hp)
  | altLeft _ ih => exact ih (Bool.or_eq_false_iff.1 hp).1
  | altRight _ ih => exact ih (Bool.or_eq_false_iff.1 hp).2
  | starDone => rfl
  | starRound _ _ _ ihp ihrest => exact (ihrest hp).trans (ihp hp)
  | plusDone _ _ ih => exact ih hp
  | plusRounds _ _ _ ihp ihrest => exact (ihrest hp).trans (ihp hp)
  | group _ ih => exact ih hp
  | look _ _ ih => exact ih hp
  | lookFailed => rfl
  | backref hrepeat =>
    obtain ⟨_, rfl⟩ := repeat?_eq_some hrepeat
    rfl
  | atomic _ ih => exact ih hp
  | keep => cases hp
  | searchStart _ => rfl
  | groupSet _ => rfl
  | branchYes _ _ ihp ihq =>
    obtain ⟨hp, hrest⟩ := Bool.or_eq_false_iff.1 hp
    exact (ihq (Bool.or_eq_false_iff.1 hrest).1).trans (ihp hp)
  | branchNo _ ih => exact ih (Bool.or_eq_false_iff.1 (Bool.or_eq_false_iff.1 hp).2).2

/-! ## Searches -/

namespace State

/-- The state in a search that started elsewhere. -/
def searchedFrom (origin : Nat) (s : State) : State := { s with origin }

theorem step?_searchedFrom (origin : Nat) (s : State) (set : CharSet) :
    (s.searchedFrom origin).step? text set = (s.step? text set).map (searchedFrom origin) := by
  simp only [step?, searchedFrom]
  cases text[s.pos]? with
  | none => rfl
  | some c =>
    dsimp only
    split <;> rfl

theorem repeat?_searchedFrom (origin : Nat) (s : State) (index : Nat) :
    (s.searchedFrom origin).repeat? text index =
      (s.repeat? text index).map (searchedFrom origin) := by
  simp only [repeat?, searchedFrom]
  cases s.marks.lookup index with
  | none => rfl
  | some span =>
    dsimp only
    rw [apply_ite (Option.map (searchedFrom origin))]
    rfl

end State

open State (searchedFrom)

/-- A way that does not ask for the start of the search is one in every search. -/
theorem Leads.searchedFrom {p : Node} {s t : State} (h : Leads text p s t)
    (hp : p.uses .searchStart = false) (origin : Nat) :
    Leads text p (s.searchedFrom origin) (t.searchedFrom origin) := by
  induction h with
  | empty => exact .empty
  | @chars set s t hstep =>
    refine .chars ?_
    rw [State.step?_searchedFrom, hstep]
    rfl
  | assertion hholds => exact .assertion hholds
  | seq _ _ ihp ihq =>
    obtain ⟨hp, hq⟩ := Bool.or_eq_false_iff.1 hp
    exact .seq (ihp hp) (ihq hq)
  | altLeft _ ih => exact .altLeft (ih (Bool.or_eq_false_iff.1 hp).1)
  | altRight _ ih => exact .altRight (ih (Bool.or_eq_false_iff.1 hp).2)
  | starDone => exact .starDone
  | starRound _ hpos _ ihp ihrest => exact .starRound (ihp hp) hpos (ihrest hp)
  | plusDone _ hpos ih => exact .plusDone (ih hp) hpos
  | plusRounds _ hpos _ ihp ihrest => exact .plusRounds (ihp hp) hpos (ihrest hp)
  | group _ ih => exact .group (ih hp)
  | @look back p s t hback _ ih => exact Leads.look (s := s.searchedFrom origin) hback (ih hp)
  | lookFailed => exact .lookFailed
  | @backref index s t hrepeat =>
    refine .backref ?_
    rw [State.repeat?_searchedFrom, hrepeat]
    rfl
  | atomic _ ih => exact .atomic (ih hp)
  | keep => exact .keep
  | searchStart _ => cases hp
  | groupSet hset => exact .groupSet hset
  | branchYes _ _ ihp ihq =>
    obtain ⟨hp, hrest⟩ := Bool.or_eq_false_iff.1 hp
    exact .branchYes (ihp hp) (ihq (Bool.or_eq_false_iff.1 hrest).1)
  | branchNo _ ih => exact .branchNo (ih (Bool.or_eq_false_iff.1 (Bool.or_eq_false_iff.1 hp).2).2)

/-- The ways do not depend on where the search started. -/
def IgnoresOrigin (body : State → List State) : Prop :=
  ∀ origin s, body (s.searchedFrom origin) = (body s).map (searchedFrom origin)

theorem IgnoresOrigin.starWays {body : State → List State} (hbody : IgnoresOrigin body)
    (greedy : Bool) (fuel : Nat) : IgnoresOrigin (starWays greedy body fuel) := by
  intro origin s
  induction fuel generalizing s with
  | zero => rfl
  | succ fuel ih =>
    have hmore : ((body (s.searchedFrom origin)).filter
          ((s.searchedFrom origin).pos < ·.pos)).flatMap (Pattern.starWays greedy body fuel) =
        (((body s).filter (s.pos < ·.pos)).flatMap (Pattern.starWays greedy body fuel)).map
          (searchedFrom origin) := by
      rw [hbody, List.filter_map, List.flatMap_map, List.map_flatMap]
      exact List.flatMap_congr fun t _ => ih t
    rw [Pattern.starWays, Pattern.starWays, hmore]
    cases greedy with
    | true => rw [if_pos rfl, if_pos rfl, List.map_append]; rfl
    | false => rfl

theorem IgnoresOrigin.waysBack {body : State → List State} (hbody : IgnoresOrigin body)
    (back : Nat) : IgnoresOrigin (waysBack back body) := by
  intro origin s
  unfold Pattern.waysBack
  rw [apply_ite (List.map (searchedFrom origin)), ← hbody]
  rfl

theorem toList_map {α β : Type} (g : α → β) (o : Option α) : (o.map g).toList = o.toList.map g := by
  cases o <;> rfl

/-- The ways to match a pattern that does not ask for the start of the search. -/
theorem ways_searchedFrom {p : Node} (hp : p.uses .searchStart = false) :
    IgnoresOrigin (ways text p) := by
  intro origin s
  induction p generalizing origin s with
  | empty => rfl
  | chars set => rw [ways, ways, State.step?_searchedFrom, toList_map]
  | assertion a =>
    rw [ways, ways, apply_ite (List.map (searchedFrom origin))]
    rfl
  | seq p q ihp ihq =>
    obtain ⟨hp, hq⟩ := Bool.or_eq_false_iff.1 hp
    rw [ways, ways, ihp hp, List.flatMap_map, List.map_flatMap]
    exact List.flatMap_congr fun t _ => ihq hq origin t
  | alt p q ihp ihq =>
    obtain ⟨hp, hq⟩ := Bool.or_eq_false_iff.1 hp
    rw [ways, ways, ihp hp, ihq hq, List.map_append]
  | star greedy p ih =>
    have hbody : IgnoresOrigin (ways text p) := ih hp
    exact hbody.starWays greedy _ origin s
  | plus greedy p ih =>
    rw [ways, ways, ih hp, List.flatMap_map, List.map_flatMap]
    have hbody : IgnoresOrigin (ways text p) := ih hp
    refine List.flatMap_congr fun t _ => ?_
    rw [apply_ite (List.map (searchedFrom origin)), ← hbody.starWays]
    rfl
  | group index p ih =>
    rw [ways, ways, ih hp, List.map_map, List.map_map]
    rfl
  | look negative back p ih =>
    have hbody : IgnoresOrigin (ways text p) := ih hp
    rw [ways, ways, hbody.waysBack]
    cases negative with
    | false =>
      rw [if_neg Bool.false_ne_true, if_neg Bool.false_ne_true, List.map_map, List.map_map]
      rfl
    | true =>
      rw [if_pos rfl, if_pos rfl, List.isEmpty_map, apply_ite (List.map (searchedFrom origin))]
      rfl
  | backref index => rw [ways, ways, State.repeat?_searchedFrom, toList_map]
  | atomic p ih => rw [ways, ways, ih hp, List.head?_map, toList_map]
  | keep => rfl
  | searchStart => cases hp
  | groupSet index =>
    rw [ways, ways, apply_ite (List.map (searchedFrom origin))]
    rfl
  | branch condition yes no ihc ihy ihn =>
    obtain ⟨hc, hrest⟩ := Bool.or_eq_false_iff.1 hp
    obtain ⟨hy, hn⟩ := Bool.or_eq_false_iff.1 hrest
    rw [ways, ways, ihc hc, List.head?_map]
    cases (ways text condition s).head? with
    | some t => exact ihy hy origin t
    | none => exact ihn hn origin s

end Banknote.Pattern
