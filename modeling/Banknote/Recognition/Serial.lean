import Banknote.Config.Basic
import Banknote.Currency.Basic
import Banknote.Failure

/-!
# Finding the serial number

`SerialTree.resolve` picks the plan for a denomination: its own entry, the entry that this one
refers to, or else the default plan.  A reference is followed once.

`SerialPlan.extract` runs a plan over the tokens of a note.  Without joining, the serial number is
the first token that the pattern matches, among those that no removal pattern matches.  With
joining, what the removal patterns match is taken out of the joined text, and the serial number is a
group of the match.  It is empty if nothing is found.
-/

namespace Banknote

/-- The plan for a denomination, if one is given. -/
def SerialTree.resolve (t : SerialTree) (denomination : Option String) :
    Except Failure SerialPlan :=
  match denomination with
  | none | some "" => .ok t.root
  | some denomination =>
    match t.entries.get? (Config.entryKey denomination) with
    | none => .ok t.root
    | some (.concrete plan) => .ok plan
    | some (.reference name) =>
      match t.entries.get? name with
      | some (.concrete plan) => .ok plan
      | some (.reference _) => .error (.unsupportedReference name)
      | none => .error (.directiveNotDefined name)

namespace SerialPlan

/-- The first token that the pattern matches and no removal pattern does. -/
def extractToken (p : SerialPlan) (tokens : List String) : String :=
  let kept := tokens.filter fun token => !p.tokensToRemove.any (·.isMatch token)
  ResultFilter.applyAll p.resultFilters ((kept.find? p.matcher.isMatch).getD "")

/-- A text without what the removal patterns match, one after the other. -/
def scrub (p : SerialPlan) (joined : String) : String :=
  p.tokensToRemove.foldl (fun text pattern => pattern.removeAll text) joined

/-- The group of a match that holds the serial number; empty if the filters left too few groups. -/
def pick (p : SerialPlan) (groups : List String) : String :=
  match (MatchFilter.applyAll p.matchFilters groups)[p.captureGroup]? with
  | some group => ResultFilter.applyAll p.resultFilters group
  | none => ""

/-- The serial number in a joined text. -/
def extractJoined (p : SerialPlan) (joined : String) : String :=
  if joined.isEmpty then ""
  else match p.matcher.groups? (p.scrub joined) with
    | some groups => p.pick groups
    | none => ""

/-- The serial number on a note. -/
def extract (p : SerialPlan) (tokens : List String) : String :=
  match Token.join tokens p.joinMethod with
  | none => p.extractToken tokens
  | some joined => p.extractJoined joined

end SerialPlan

/-- The serial number on a note of a denomination. -/
def SerialTree.extract (t : SerialTree) (denomination : Option String) (tokens : List String) :
    Except Failure String :=
  (t.resolve denomination).map (·.extract tokens)

/-- The serial tree of a currency. -/
def Currency.serialTree (c : Currency) : Except Failure SerialTree :=
  match c.serial with
  | some t => .ok t
  | none => .error (.directiveNotDefined Place.serialKey)

end Banknote
