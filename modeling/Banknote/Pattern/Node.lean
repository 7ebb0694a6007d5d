import Banknote.Pattern.Expr

/-!
# Pattern machines

A `Node` is a pattern in the form in which it is matched: sequences and choices have two parts,
counted repeats are unfolded, and every look at the text before a place knows how far back it
starts.  Matching moves a `State` through a text; the state also knows where the search started.

An unbounded repeat is a `star`: each round must consume something.  A `plus` is only used for
bodies that can match without a character: its first round may consume nothing and then is the last.
-/

namespace Banknote.Pattern

/-- A pattern as it is matched. -/
inductive Node where
  /-- Matches without a character. -/
  | empty
  /-- One character of a set. -/
  | chars (set : CharSet)
  /-- A condition on the place. -/
  | assertion (a : Assertion)
  /-- One after the other. -/
  | seq (p q : Node)
  /-- The first, or else the second. -/
  | alt (p q : Node)
  /-- Any number of rounds that each consume something. -/
  | star (greedy : Bool) (p : Node)
  /-- One round, and if it consumes something any number of further ones. -/
  | plus (greedy : Bool) (p : Node)
  /-- A numbered group. -/
  | group (index : Nat) (p : Node)
  /-- A match that starts `back` characters before the place and whose end does not count; or, if it
  is negative, the lack of one. -/
  | look (negative : Bool) (back : Nat) (p : Node)
  /-- What a group matched. -/
  | backref (index : Nat)
  /-- The first match only. -/
  | atomic (p : Node)
  /-- Moves the reported start of the match to the place. -/
  | keep
  /-- The place is not beyond the one where the search started. -/
  | searchStart
  /-- A group has matched. -/
  | groupSet (index : Nat)
  /-- The first match of the first part and then the second part, or the third part if the first one
  does not match. -/
  | branch (condition yes no : Node)
  deriving DecidableEq, Repr, Inhabited

namespace Node

/-- Whether a node does without look-around, references, atomic groups, conditions, moved starts, the
start of the search and word boundaries, so that it can be matched in linear time. -/
def isPlain : Node → Bool
  | empty | chars _ => true
  | assertion a => !a.readsWords
  | seq p q | alt p q => p.isPlain && q.isPlain
  | star _ p | plus _ p | group _ p => p.isPlain
  | look _ _ _ | backref _ | atomic _ | keep | searchStart | groupSet _ | branch _ _ _ => false

/-- The node or nothing, the node first if it is greedy. -/
def optional (greedy : Bool) (p : Node) : Node := if greedy then alt p empty else alt empty p

/-- The node `n` times and then `rest`. -/
def copies (p rest : Node) : Nat → Node
  | 0 => rest
  | n + 1 => seq p (copies p rest n)

/-- The node at most `n` times. -/
def atMost (greedy : Bool) (p : Node) : Nat → Node
  | 0 => empty
  | 1 => optional greedy p
  | n + 1 => optional greedy (seq p (atMost greedy p n))

end Node

/-- A piece of a text. -/
structure Span where
  /-- The place where it starts. -/
  first : Nat
  /-- The place where it ends. -/
  stop : Nat
  deriving DecidableEq, Repr, Inhabited

/-- How far a match has come. -/
structure State where
  /-- The place in the text. -/
  pos : Nat
  /-- Where the match is reported to start. -/
  start : Nat
  /-- Where the search for the match started. -/
  origin : Nat
  /-- What the groups have matched. -/
  marks : List (Nat × Span) := []
  deriving DecidableEq, Repr, Inhabited

namespace State

/-- The start of a match at a place, in a search that started there unless said otherwise. -/
def init (pos : Nat) (origin : Nat := pos) : State := { pos, start := pos, origin }

/-- Sets what a group has matched. -/
def mark (s : State) (index : Nat) (span : Span) : State :=
  { s with marks := (index, span) :: s.marks.filter (·.1 != index) }

/-- Whether a group has matched. -/
def hasMatched (s : State) (index : Nat) : Bool := (s.marks.lookup index).isSome

/-- Steps over one character of a set. -/
def step? (text : Array Char) (set : CharSet) (s : State) : Option State :=
  match text[s.pos]? with
  | some c => if set.contains c then some { s with pos := s.pos + 1 } else none
  | none => none

/-- Steps over what a group has matched. -/
def repeat? (text : Array Char) (index : Nat) (s : State) : Option State :=
  match s.marks.lookup index with
  | none => none
  | some span =>
    let length := span.stop - span.first
    if text.extract span.first span.stop == text.extract s.pos (s.pos + length) then
      some { s with pos := s.pos + length }
    else none

end State

/-- Whether the character at a place is one of a word. -/
def wordAt (text : Array Char) (pos : Nat) : Bool :=
  match text[pos]? with
  | some c => Text.isWordChar c
  | none => false

/-- Whether the character before a place is one of a word. -/
def wordBefore (text : Array Char) (pos : Nat) : Bool := pos != 0 && wordAt text (pos - 1)

/-- Whether a condition holds at a place. -/
def Assertion.holds (text : Array Char) (pos : Nat) : Assertion → Bool
  | textStart => pos == 0
  | textEnd => pos == text.size
  | lineStart => pos == 0 || text[pos - 1]? == some '\n'
  | lineEnd => pos == text.size || text[pos]? == some '\n'
  | returnStart =>
    pos == 0 || text[pos - 1]? == some '\n' ||
      text[pos - 1]? == some '\r' && text[pos]? != some '\n'
  | returnEnd =>
    pos == text.size || text[pos]? == some '\r' ||
      text[pos]? == some '\n' && (pos == 0 || text[pos - 1]? != some '\r')
  | wordBoundary => wordBefore text pos != wordAt text pos
  | notWordBoundary => wordBefore text pos == wordAt text pos
  | wordStart => !wordBefore text pos && wordAt text pos
  | wordEnd => wordBefore text pos && !wordAt text pos
  | wordStartHalf => !wordBefore text pos
  | wordEndHalf => !wordAt text pos

end Banknote.Pattern
