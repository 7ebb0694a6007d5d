import Banknote.Pattern.Node

/-!
# Matching in linear time

What follows a place in a plain pattern does not depend on what its groups have matched.  So of all
ways to come to a place only the first one counts, and a match can be looked for by moving a list of
states, the preferred ones first, through the pattern: `ends` drops a state as soon as a state
before it has the same place.

A star of one character leads from a state to the places of a run of characters; that most common
case needs no record of places.
-/

namespace Banknote.Pattern

/-- A set of places, as the bits of a number. -/
structure Places where
  /-- The bit of a place is set if the place belongs to the set. -/
  bits : Nat := 0
  deriving DecidableEq, Repr, Inhabited

namespace Places

/-- Whether a place belongs to the set. -/
def contains (ps : Places) (pos : Nat) : Bool := ps.bits.testBit pos

/-- The set with one more place. -/
def insert (ps : Places) (pos : Nat) : Places := ⟨ps.bits ||| 1 <<< pos⟩

end Places

/-- States in the order in which they are preferred, the last one first, and the places that they
have come to. -/
structure Reached where
  /-- The places. -/
  places : Places := {}
  /-- The states, the last one first. -/
  states : List State := []
  deriving Inhabited

/-- Adds a state unless its place is taken. -/
def Reached.add (r : Reached) (s : State) : Reached :=
  if r.places.contains s.pos then r else ⟨r.places.insert s.pos, s :: r.states⟩

/-- The states with the first one only of each place. -/
def firstOfPlace : List State → List State
  | [] => []
  | [s] => [s]
  | states => (states.foldl Reached.add {}).states.reverse

/-- The rounds of a star from a state, in the order in which they are preferred, added to those
reached before.  `places` are those from which rounds were started.  `fuel` bounds the number of
rounds. -/
def rounds (greedy : Bool) (body : State → List State) : Nat → Reached → State → Reached
  | 0, r, s => r.add s
  | fuel + 1, r, s =>
    if r.places.contains s.pos then r
    else
      let next := (body s).filter (s.pos < ·.pos)
      if greedy then
        let r := next.foldl (rounds greedy body fuel) { r with places := r.places.insert s.pos }
        { r with states := s :: r.states }
      else next.foldl (rounds greedy body fuel) (r.add s)

/-- Where the rounds of a star lead from a list of states. -/
def starEnds (size : Nat) (greedy : Bool) (body : State → List State) (states : List State) :
    List State :=
  (states.foldl (fun r s => rounds greedy body (size - s.pos + 1) r s) {}).states.reverse

/-- The states to which the characters of a set lead from a state, the nearest one first.  `fuel`
bounds the number of characters. -/
def charRun (text : Array Char) (set : CharSet) : Nat → State → List State
  | 0, s => [s]
  | fuel + 1, s =>
    match s.step? text set with
    | some t => s :: charRun text set fuel t
    | none => [s]

/-- Where a star of one character leads from a state. -/
def charStarEnds (text : Array Char) (greedy : Bool) (set : CharSet) (s : State) : List State :=
  let states := charRun text set (text.size - s.pos) s
  if greedy then states.reverse else states

/-- Where a plain pattern leads from a list of states. -/
def ends (text : Array Char) : Node → List State → List State
  | .empty, states => states
  | .chars set, states => states.filterMap (State.step? text set)
  | .assertion a, states => states.filter fun s => a.holds text s.pos
  | .seq p q, states => ends text q (ends text p states)
  | .alt p q, states =>
    firstOfPlace (states.flatMap fun s => ends text p [s] ++ ends text q [s])
  | .star greedy p, states =>
    match p, states with
    | .chars set, [s] => charStarEnds text greedy set s
    | _, _ => starEnds text.size greedy (fun s => ends text p [s]) states
  | .plus greedy p, states =>
    firstOfPlace (states.flatMap fun s => (ends text p [s]).flatMap fun t =>
      if s.pos < t.pos then starEnds text.size greedy (fun s => ends text p [s]) [t] else [t])
  | .group index p, states =>
    firstOfPlace (states.flatMap fun s =>
      (ends text p [s]).map fun t => t.mark index ⟨s.pos, t.pos⟩)
  | _, _ => []

/-- The preferred way to match a plain pattern from a state. -/
def firstEnd (text : Array Char) (p : Node) (s : State) : Option State := (ends text p [s]).head?

end Banknote.Pattern
