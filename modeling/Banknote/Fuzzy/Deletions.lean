import Std.Data.HashSet

/-!
# Deletions

What is left of a word when some of its characters are deleted.  `deletions k word` lists every text
that at most `k` deletions lead to, each once: first the word itself, then one layer after the other
with one more character deleted.  The layers end with the empty text at the latest, however great
`k` is.
-/

namespace Banknote.Fuzzy

/-- What one deletion leads to, once for every place. -/
def dropOne : List Char → List (List Char)
  | [] => []
  | c :: rest => rest :: (dropOne rest).map (c :: ·)

/-- What has been kept of a list, with the set of what was seen. -/
structure Kept where
  /-- What was seen. -/
  seen : Std.HashSet String
  /-- What was kept, last one first. -/
  kept : List (List Char)

/-- Keeps a text unless it was seen. -/
def Kept.add (k : Kept) (text : List Char) : Kept :=
  let key := String.ofList text
  if k.seen.contains key then k else ⟨k.seen.insert key, text :: k.kept⟩

/-- The texts of a list, each where it comes first. -/
def distinct (texts : List (List Char)) : List (List Char) :=
  (texts.foldl Kept.add ⟨∅, []⟩).kept.reverse

/-- What one deletion leads to from the texts of a layer. -/
def nextLayer (layer : List (List Char)) : List (List Char) := distinct (layer.flatMap dropOne)

/-- A layer and at most `k` further ones. -/
def layers : Nat → List (List Char) → List (List Char)
  | 0, layer => layer
  | k + 1, layer =>
    let next := nextLayer layer
    if next.isEmpty then layer else layer ++ layers k next

/-- What at most `k` deletions leave of a word. -/
def deletions (k : Nat) (word : List Char) : List (List Char) := layers k [word]

end Banknote.Fuzzy
