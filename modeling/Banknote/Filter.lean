import Banknote.Text.Blank

/-!
# Filters

What is done to the groups of a match before one is picked (`MatchFilter`) and to the text that was
picked (`ResultFilter`).  A filter only ever takes something away.
-/

namespace Banknote

/-- What is done to a serial number that was found. -/
inductive ResultFilter where
  /-- Blanks are taken out. -/
  | removeBlanks
  deriving DecidableEq, Repr, Inhabited

/-- What is done to the groups of a match before one is picked. -/
inductive MatchFilter where
  /-- Empty groups are taken out, so that the later ones move up. -/
  | removeEmpty
  deriving DecidableEq, Repr, Inhabited

namespace ResultFilter

/-- The filter of a name. -/
def ofName? : String → Option ResultFilter
  | "remove-whitespace" | "remove-spaces" => some removeBlanks
  | _ => none

/-- Applies a filter to a text. -/
def apply : ResultFilter → String → String
  | removeBlanks, value => String.ofList (Text.dropBlanks value.toList)

/-- Applies filters one after the other. -/
def applyAll (filters : List ResultFilter) (value : String) : String :=
  filters.foldl (fun value filter => filter.apply value) value

end ResultFilter

namespace MatchFilter

/-- The filter of a name. -/
def ofName? : String → Option MatchFilter
  | "remove-empty" => some removeEmpty
  | _ => none

/-- Applies a filter to groups. -/
def apply : MatchFilter → List String → List String
  | removeEmpty, groups => groups.filter (!·.isEmpty)

/-- Applies filters one after the other. -/
def applyAll (filters : List MatchFilter) (groups : List String) : List String :=
  filters.foldl (fun groups filter => filter.apply groups) groups

end MatchFilter

end Banknote
