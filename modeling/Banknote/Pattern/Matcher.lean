import Banknote.Pattern.Backtrack
import Banknote.Pattern.Program

/-!
# Matchers

A `Matcher` is a compiled pattern with its engine and its direction.  `isMatch` asks whether the
pattern matches anywhere, `groups?` for the groups of one match, and `removeAll` takes all matches
out of a text.

From the left, the match that starts first is taken.  From the right, a search is started from one
place after the other, until one finds nothing.  A search that finds a match at its own start, the
match that the engine prefers there, has a candidate: the one that ends last is taken, and of those
the one that starts first.  A search that gives up counts as one that finds nothing, and from the
right it takes back what was found before.
-/

namespace Banknote.Pattern

/-- A compiled pattern, ready to search texts. -/
structure Matcher where
  /-- The text of the pattern. -/
  source : String
  /-- The engine that searches. -/
  engine : Engine
  /-- The end that matches are looked for first. -/
  direction : Direction
  /-- The compiled pattern. -/
  program : Program
  deriving DecidableEq, Repr, Inhabited

/-- Where a search stopped. -/
inductive Landing where
  /-- At a match that was tried from a place. -/
  | found (place : Nat) (s : State)
  /-- At the end of the text. -/
  | nothing
  /-- At the limit. -/
  | gaveUp
  deriving DecidableEq, Repr, Inhabited

namespace Matcher

/-- Compiles a pattern for the linear engine. -/
def linear? (source : String) : Option Matcher :=
  (Program.compile? .linear source.toList).map fun program =>
    { source, engine := .linear, direction := .leftToRight, program }

/-- Compiles a pattern for the backtracking engine. -/
def backtracking? (source : String) (direction : Direction) : Option Matcher :=
  (Program.compile? .backtracking source.toList).map fun program =>
    { source, engine := .backtracking, direction, program }

/-- The number of groups, the whole match among them. -/
def groupCount (m : Matcher) : Nat := m.program.groups

/-- Whether the pattern is matched in linear time. -/
def isLinear (m : Matcher) : Bool := m.engine == .linear || m.program.node.isPlain

/-- Tries to match at just one place, in a search that started at `origin`. -/
def attempt (m : Matcher) (text : Array Char) (origin place left : Nat) : Verdict :=
  if m.isLinear then
    match firstEnd text m.program.node (.init place origin) with
    | some s => .found s left
    | none => .failed left
  else run text m.program.node (.init place origin) left .found

/-- Tries one place after the other, `count` places in all. -/
def searchFrom (m : Matcher) (text : Array Char) (origin left place : Nat) : Nat → Landing
  | 0 => .nothing
  | count + 1 =>
    match m.attempt text origin place left with
    | .found s _ => .found place s
    | .failed left => searchFrom m text origin left (place + 1) count
    | .gaveUp => .gaveUp

/-- Searches a text from a place to its end. -/
def search (m : Matcher) (text : Array Char) (place : Nat) : Landing :=
  m.searchFrom text place backtrackLimit place (text.size + 1 - place)

/-- The match that a search found. -/
def Landing.state? : Landing → Option State
  | .found _ s => some s
  | _ => none

/-- The better of two matches from the right: the one that ends later, else the first one. -/
def rightmost (best : Option State) (s : State) : Option State :=
  match best with
  | none => some s
  | some b => if b.pos < s.pos then some s else best

/-- Searches from one place after the other, `count` places in all, the best match of the searches
before being known.  A match counts if it is reported to start where its search started, and the first
search that finds nothing is the last one. -/
def scanFrom (m : Matcher) (text : Array Char) (best : Option State) (place : Nat) :
    Nat → Option State
  | 0 => best
  | count + 1 =>
    match m.search text place with
    | .gaveUp => none
    | .nothing => best
    | .found _ s =>
      scanFrom m text (if s.start = place then rightmost best s else best) (place + 1) count

/-- The match that is taken. -/
def match? (m : Matcher) (text : Array Char) : Option State :=
  match m.direction with
  | .leftToRight => Landing.state? (m.search text 0)
  | .rightToLeft => m.scanFrom text none 0 (text.size + 1)

/-- The text of a group of a match; empty if the group took no part. -/
def groupText (text : Array Char) (s : State) (index : Nat) : String :=
  let span : Option Span := if index = 0 then some ⟨s.start, s.pos⟩ else s.marks.lookup index
  match span with
  | some span => String.ofList (text.extract span.first span.stop).toList
  | none => ""

/-- Whether the pattern matches anywhere in a text. -/
def isMatch (m : Matcher) (text : String) : Bool :=
  (Landing.state? (m.search text.toList.toArray 0)).isSome

/-- The texts of all groups of the match that is taken, the whole match first. -/
def groups? (m : Matcher) (text : String) : Option (List String) :=
  let chars := text.toList.toArray
  (m.match? chars).map fun s => (List.range m.groupCount).map (groupText chars s)

/-- The matches from a place on that do not overlap.  An empty match right after another match is
passed over.  `fuel` bounds the number of searches. -/
def spansFrom (m : Matcher) (text : Array Char) :
    Nat → Option Nat → Nat → List Span
  | 0, _, _ => []
  | fuel + 1, last, place =>
    match m.search text place with
    | .found _ s =>
      if s.start = s.pos ∧ last = some s.pos then
        spansFrom m text fuel none (s.pos + 1)
      else ⟨s.start, s.pos⟩ :: spansFrom m text fuel (some s.pos) s.pos
    | _ => []

/-- The matches in a text that do not overlap. -/
def spans (m : Matcher) (text : Array Char) : List Span :=
  m.spansFrom text (2 * text.size + 2) none 0

/-- What is left of a text from a place on without some spans. -/
def cutFrom (text : Array Char) (place : Nat) : List Span → List Char
  | [] => (text.extract place text.size).toList
  | span :: rest => (text.extract place span.first).toList ++ cutFrom text span.stop rest

/-- The text without the matches of the pattern. -/
def removeAll (m : Matcher) (text : String) : String :=
  let chars := text.toList.toArray
  String.ofList (cutFrom chars 0 (m.spans chars))

end Matcher

end Banknote.Pattern
