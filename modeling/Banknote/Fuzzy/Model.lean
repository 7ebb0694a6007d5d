import Banknote.Fuzzy.Deletions
import Banknote.Fuzzy.Distance
import Banknote.KeyMap
import Banknote.Text.Case
import Std.Data.HashMap

/-!
# Suggestions for garbled words

A `Model` holds a vocabulary and finds the words of it that are few edits away from a given word.
Every word of the vocabulary is filed under all its deletions; two words that are at most `depth`
edits apart have a deletion in common, so a look-up only has to try the deletions of the given word.
What it finds is checked by its distance.

All words are compared in lower case.
-/

namespace Banknote.Fuzzy

/-- A vocabulary that can be searched. -/
structure Model where
  /-- The greatest number of edits. -/
  depth : Nat
  /-- The words, in lower case, each once. -/
  vocabulary : Array (List Char)
  /-- Under each deletion the places of the words that it comes from. -/
  index : Std.HashMap String (List Nat)

namespace Model

/-- The model without words. -/
def empty (depth : Nat) : Model := ⟨depth, #[], ∅⟩

/-- Files a place under one deletion. -/
def file (id : Nat) (index : Std.HashMap String (List Nat)) (deletion : List Char) :
    Std.HashMap String (List Nat) :=
  let key := String.ofList deletion
  index.insert key (id :: index.getD key [])

/-- Adds a word, unless it is empty or there already. -/
def add (m : Model) (word : String) : Model :=
  let word := Text.lower word.toList
  if word.isEmpty || m.vocabulary.contains word then m
  else
    { m with
      vocabulary := m.vocabulary.push word
      index := (deletions m.depth word).foldl (file m.vocabulary.size) m.index }

/-- The model of some words. -/
def train (vocabulary : List String) (depth : Nat) : Model :=
  vocabulary.foldl add (empty depth)

/-- The words that have a deletion in common with `word`, in order. -/
def candidates (m : Model) (word : List Char) : List String :=
  let ids := (deletions m.depth word).flatMap fun deletion =>
    m.index.getD (String.ofList deletion) []
  let words := ids.filterMap fun id => m.vocabulary[id]?
  (KeyMap.ofList (words.map fun w => (String.ofList w, ()))).keys

/-- The words of the vocabulary that are at most `depth` edits away from a word and differ from it,
in order. -/
def suggest (m : Model) (word : String) : List String :=
  let word := Text.lower word.toList
  (m.candidates word).filter fun candidate =>
    candidate.toList != word && distance candidate.toList word ≤ m.depth

/-- The words of the vocabulary, in the order in which they came. -/
def words (m : Model) : List String := m.vocabulary.toList.map String.ofList

end Model

end Banknote.Fuzzy
