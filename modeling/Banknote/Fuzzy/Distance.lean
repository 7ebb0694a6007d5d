/-!
# Edit distance

The least number of insertions, deletions and substitutions of single characters that lead from one
word to another.  `distance` keeps one row of the table of distances: the row for a prefix of the
first word holds the distances from it to every prefix of the second word.
-/

namespace Banknote.Fuzzy

/-- The rest of a row after its first entry.  `corner` stands above the entry before, `left` is that
entry, and the list holds what stands above the entries to come. -/
def rowFrom (c : Char) : List Char → Nat → Nat → List Nat → List Nat
  | b :: bs, corner, left, above :: row =>
    let entry := min (corner + if c = b then 0 else 1) (min (left + 1) (above + 1))
    entry :: rowFrom c bs above entry row
  | _, _, _, _ => []

/-- The row that follows when the first word goes on with `c`. -/
def nextRow (b : List Char) (row : List Nat) (c : Char) : List Nat :=
  match row with
  | [] => []
  | corner :: above => (corner + 1) :: rowFrom c b corner (corner + 1) above

/-- The least number of edits that lead from `a` to `b`. -/
def distance (a b : List Char) : Nat :=
  ((a.foldl (nextRow b) (List.range (b.length + 1))).getLast?).getD 0

end Banknote.Fuzzy
