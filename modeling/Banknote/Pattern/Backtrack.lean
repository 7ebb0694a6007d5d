import Banknote.Pattern.Ends

/-!
# Matching with backtracking

`run` tries the ways to match a pattern one after the other, each together with everything that has
to follow it.  Going back from a place where nothing fits is counted, and a search gives up when the
count passes a limit; so a search has three possible verdicts.

The body of an atomic group, a condition or a negative look is a search of its own whose first
success stands.  A look that is not negative is matched like any other part, and what follows it goes
on from the place of the look.
-/

namespace Banknote.Pattern

/-- The outcome of a search. -/
inductive Verdict where
  /-- A match, and how often one may still go back. -/
  | found (s : State) (left : Nat)
  /-- No match, and how often one may still go back. -/
  | failed (left : Nat)
  /-- The limit was passed. -/
  | gaveUp
  deriving DecidableEq, Repr, Inhabited

/-- What has to follow. -/
abbrev Following := State → Nat → Verdict

/-- Going back once. -/
def goBack : Nat → Verdict
  | 0 => .gaveUp
  | left + 1 => .failed left

/-- The first verdict, or the second if the first one is that there is no match. -/
def Verdict.orElse (v : Verdict) (other : Nat → Verdict) : Verdict :=
  match v with
  | failed left => other left
  | v => v

/-- What follows a verdict, unless it is that the search gave up. -/
def Verdict.resume (v : Verdict) (found : Following) (failed : Nat → Verdict) : Verdict :=
  match v with
  | .found s left => found s left
  | .failed left => failed left
  | .gaveUp => .gaveUp

/-- The rounds of a star.  `fuel` bounds the number of rounds. -/
def runRounds (greedy : Bool) (body : State → Nat → Following → Verdict) :
    Nat → State → Nat → Following → Verdict
  | 0, s, left, k => k s left
  | fuel + 1, s, left, k =>
    let more left := body s left fun t left =>
      if s.pos < t.pos then runRounds greedy body fuel t left k else goBack left
    if greedy then (more left).orElse (k s) else (k s left).orElse more

/-- Tries the ways to match a pattern from a state. -/
def run (text : Array Char) : Node → State → Nat → Following → Verdict
  | .empty, s, left, k => k s left
  | .chars set, s, left, k =>
    match s.step? text set with
    | some t => k t left
    | none => goBack left
  | .assertion a, s, left, k => if a.holds text s.pos then k s left else goBack left
  | .seq p q, s, left, k => run text p s left fun t left => run text q t left k
  | .alt p q, s, left, k => (run text p s left k).orElse fun left => run text q s left k
  | .star greedy p, s, left, k => runRounds greedy (run text p) (text.size - s.pos) s left k
  | .plus greedy p, s, left, k =>
    run text p s left fun t left =>
      if s.pos < t.pos then runRounds greedy (run text p) (text.size - t.pos) t left k
      else k t left
  | .group index p, s, left, k =>
    run text p s left fun t left => k (t.mark index ⟨s.pos, t.pos⟩) left
  | .look false back p, s, left, k =>
    if s.pos < back then goBack left
    else run text p { s with pos := s.pos - back } left fun t left => k { t with pos := s.pos } left
  | .look true back p, s, left, k =>
    (if s.pos < back then goBack left
      else run text p { s with pos := s.pos - back } left .found).resume (fun _ => goBack) (k s)
  | .backref index, s, left, k =>
    match s.repeat? text index with
    | some t => k t left
    | none => goBack left
  | .atomic p, s, left, k =>
    if p.isPlain then
      match firstEnd text p s with
      | some t => k t left
      | none => goBack left
    else (run text p s left .found).resume k .failed
  | .keep, s, left, k => k { s with start := s.pos } left
  | .searchStart, s, left, k => if s.pos ≤ s.origin then k s left else goBack left
  | .groupSet index, s, left, k => if s.hasMatched index then k s left else goBack left
  | .branch condition yes no, s, left, k =>
    (run text condition s left .found).resume (fun t left => run text yes t left k)
      fun left => run text no s left k

/-- How often one may go back in one search. -/
def backtrackLimit : Nat := 1000000

end Banknote.Pattern
