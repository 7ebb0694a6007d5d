import Banknote.Proofs.Fuzzy.Rounds
import Banknote.Proofs.Fuzzy.Suggest
import Mathlib.Data.List.Induction

/-!
# What training leaves in a model

Training takes one word after the other.  A word that is empty or already there is passed over, and
any other word comes last and is filed under its deletions with the place that it gets.
`train_aligned` says what that comes to for a whole list of words.  There are three groups of
statements.

* The vocabulary.  `vocabulary_add` is one word and `vocabulary_train` the list of words.  Whether a
  word is there already is asked of words in lower case, so two words that differ only in their case
  take one place.
* The index.  `Filed` says which places are stored under a deletion; here is that none is stored
  twice (`FiledOnce`).  A new place is beyond all stored ones, and the deletions of a word have no
  duplicates.
* Look-ups.  `placesFor` lists the places that are looked up for a word, and `suggest?` is `suggest`
  with look-ups that can fail.  It fails exactly if one of the places is beyond the vocabulary
  (`suggest?_eq_ite`), and none is, because only places of words are stored.
-/

namespace Banknote.Fuzzy

/-- No text is listed twice among the deletions of a word. -/
theorem nodup_deletions (k : Nat) (word : List Char) : (deletions k word).Nodup :=
  (isLayer_zero word).nodup_layers (List.nodup_singleton word) k

namespace Model

/-- A model that is trained with one word more takes that word last. -/
theorem train_concat (words : List String) (word : String) (depth : Nat) :
    train (words ++ [word]) depth = (train words depth).add word := by
  rw [train, List.foldl_append]
  rfl

/-! ## The vocabulary -/

/-- The words of a list in lower case, without the empty ones. -/
def lowered (words : List String) : List (List Char) :=
  (words.map fun word => Text.lower word.toList).filter (· ≠ [])

theorem lowered_concat (words : List String) (word : String) :
    lowered (words ++ [word]) =
      lowered words ++ if Text.lower word.toList = [] then [] else [Text.lower word.toList] := by
  rw [lowered, List.map_append, List.filter_append, ← lowered]
  by_cases h : Text.lower word.toList = [] <;> simp [h]

/-- A last word stays if it occurs nowhere before. -/
theorem eraseDups_concat (words : List (List Char)) (word : List Char) :
    (words ++ [word]).eraseDups =
      if word ∈ words then words.eraseDups else words.eraseDups ++ [word] := by
  have hone : [word].eraseDups = [word] := by rw [List.eraseDups_cons, List.filter_nil]; rfl
  rw [List.eraseDups_append, List.removeAll]
  by_cases h : word ∈ words <;> simp [h, hone]

/-- A new word comes last; an empty one and one that is there already change nothing. -/
theorem vocabulary_add (m : Model) (word : String) :
    (m.add word).vocabulary.toList =
      if Text.lower word.toList = [] ∨ Text.lower word.toList ∈ m.vocabulary.toList then
        m.vocabulary.toList
      else m.vocabulary.toList ++ [Text.lower word.toList] := by
  simp only [Array.mem_toList_iff]
  rcases add_cases m word with ⟨heq, hold⟩ | ⟨hne, hnew, heq⟩
  · rw [heq, if_pos hold]
  · rw [heq, if_neg (not_or.2 ⟨hne, hnew⟩), Array.toList_push]

/-- The vocabulary of a trained model lists the words in lower case, each where it comes first. -/
theorem vocabulary_train (words : List String) (depth : Nat) :
    (train words depth).vocabulary.toList = (lowered words).eraseDups := by
  -- From the right: what comes before the last word is the list of a model that is trained already.
  induction words using List.reverseRecOn with
  | nil => rfl
  | append_singleton words word ih =>
    rw [train_concat, vocabulary_add, ih, lowered_concat]
    simp only [List.mem_eraseDups]
    by_cases hempty : Text.lower word.toList = []
    · simp [hempty]
    · simp only [hempty, false_or, if_false]
      rw [eraseDups_concat]

/-- The word that differs from an earlier one only in its case takes no place. -/
example : (lowered ["ten", "", "TEN", "ikoku"]).eraseDups =
    [['t', 'e', 'n'], ['i', 'k', 'o', 'k', 'u']] := by decide

/-! ## The index -/

/-- Filing a place under several deletions puts it in front once under each of them. -/
theorem getD_foldl_file (new : Nat) (index : Std.HashMap String (List Nat)) (d : List Char)
    {ds : List (List Char)} (hds : ds.Nodup) :
    (ds.foldl (file new) index).getD (String.ofList d) [] =
      if d ∈ ds then new :: index.getD (String.ofList d) [] else index.getD (String.ofList d) [] := by
  induction ds generalizing index with
  | nil => simp
  | cons e ds ih =>
    obtain ⟨he, hds⟩ := List.nodup_cons.1 hds
    rw [List.foldl_cons, ih (file new index e) hds, getD_file]
    by_cases h : d = e
    · -- The deletion is not among the later ones, so its list is not touched again.
      subst h
      simp [he]
    · simp [h]

/-- No place is stored twice under a deletion. -/
def FiledOnce (m : Model) : Prop :=
  ∀ d : List Char, (m.index.getD (String.ofList d) []).Nodup

theorem filedOnce_empty (depth : Nat) : (empty depth).FiledOnce := by
  intro d
  simp [empty]

/-- What is stored is a place of the vocabulary. -/
theorem Filed.lt_size {m : Model} (h : m.Filed) {d : List Char} {id : Nat}
    (hid : id ∈ m.index.getD (String.ofList d) []) : id < m.vocabulary.size := by
  obtain ⟨word, hword, _⟩ := (h d id).1 hid
  exact (Array.getElem?_eq_some_iff.1 hword).1

/-- A new word gets a place that is not stored yet, and its deletions are all different. -/
theorem FiledOnce.add {m : Model} (h : m.FiledOnce) (hfiled : m.Filed) (word : String) :
    (m.add word).FiledOnce := by
  rcases add_cases m word with ⟨heq, _⟩ | ⟨_, _, heq⟩
  · rw [heq]
    exact h
  · intro d
    rw [heq, getD_foldl_file _ _ _ (nodup_deletions _ _)]
    split
    · have hnew : m.vocabulary.size ∉ m.index.getD (String.ofList d) [] :=
        fun hmem => Nat.lt_irrefl _ (hfiled.lt_size hmem)
      exact List.nodup_cons.2 ⟨hnew, h d⟩
    · exact h d

theorem filedOnce_train (words : List String) (depth : Nat) : (train words depth).FiledOnce := by
  induction words using List.reverseRecOn with
  | nil => exact filedOnce_empty depth
  | append_singleton words word ih =>
    rw [train_concat]
    exact ih.add (filed_train words depth) word

/-! ## Look-ups -/

/-- The places that are looked up for a word: what is stored under its deletions. -/
def placesFor (m : Model) (word : List Char) : List Nat :=
  (deletions m.depth word).flatMap fun deletion => m.index.getD (String.ofList deletion) []

/-- The suggestions for a word.  It is a failure to look up a place beyond the vocabulary, whereas
`suggest` passes over such a place. -/
def suggest? (m : Model) (word : String) : Option (List String) :=
  let word := Text.lower word.toList
  let words? := (m.placesFor word).mapM fun id => m.vocabulary[id]?
  words?.map fun words =>
    (KeyMap.ofList (words.map fun w => (String.ofList w, ()))).keys.filter fun candidate =>
      candidate.toList != word && distance candidate.toList word ≤ m.depth

/-- Look-ups one after the other fail if one of them fails. -/
theorem mapM_eq_ite {α β : Type} (look : α → Option β) (l : List α) :
    l.mapM look =
      if ∀ a ∈ l, (look a).isSome = true then some (l.filterMap look) else none := by
  induction l with
  | nil => simp
  | cons a l ih =>
    rw [List.mapM_cons, ih]
    cases ha : look a with
    | none => simp [ha]
    | some b =>
      by_cases hl : ∀ a ∈ l, (look a).isSome = true
      · rw [if_pos hl, if_pos (List.forall_mem_cons.2 ⟨by rw [ha]; rfl, hl⟩),
          List.filterMap_cons_some ha]
        rfl
      · rw [if_neg hl, if_neg fun h => hl (List.forall_mem_cons.1 h).2]
        rfl

/-- No look-up fails exactly if all places are in range, and then the suggestions are the same. -/
theorem suggest?_eq_ite (m : Model) (w : String) :
    m.suggest? w =
      if m.placesFor (Text.lower w.toList) ⊆ List.range m.vocabulary.size then some (m.suggest w)
      else none := by
  have hrange : (∀ id ∈ m.placesFor (Text.lower w.toList), m.vocabulary[id]?.isSome = true) ↔
      m.placesFor (Text.lower w.toList) ⊆ List.range m.vocabulary.size := by
    refine forall₂_congr fun id _ => ?_
    rw [isSome_getElem?, List.mem_range]
  simp only [suggest?, mapM_eq_ite, hrange]
  split <;> rfl

/-- Training stores places of the vocabulary only, so no other place is looked up. -/
theorem Filed.placesFor_subset {m : Model} (h : m.Filed) (word : List Char) :
    m.placesFor word ⊆ List.range m.vocabulary.size := by
  intro id hid
  obtain ⟨d, _, hd⟩ := List.mem_flatMap.1 hid
  exact List.mem_range.2 (h.lt_size hd)

/-- A trained model lists its words in lower case and without the empty ones, each where it comes
first.  A place is stored, once, under just the texts that at most `k` deletions leave of the word at
that place.  So all places that a suggestion looks up are places of words, and no look-up fails. -/
theorem train_aligned (vocabulary : List String) (k : Nat) :
    (train vocabulary k).vocabulary.toList = (lowered vocabulary).eraseDups ∧
      (∀ (variant : String) (id : Nat), id ∈ (train vocabulary k).index.getD variant [] ↔
        ∃ h : id < (train vocabulary k).vocabulary.size,
          variant.toList.Sublist (train vocabulary k).vocabulary[id] ∧
            (train vocabulary k).vocabulary[id].length ≤ variant.toList.length + k) ∧
      (∀ variant : String, ((train vocabulary k).index.getD variant []).Nodup) ∧
      ∀ w : String,
        (train vocabulary k).placesFor (Text.lower w.toList) ⊆
            List.range (train vocabulary k).vocabulary.size ∧
          (train vocabulary k).suggest? w = some ((train vocabulary k).suggest w) := by
  have hfiled := filed_train vocabulary k
  refine ⟨vocabulary_train vocabulary k, ?stored, ?once, ?lookups⟩
  case stored =>
    intro variant id
    have hstored := hfiled variant.toList id
    rw [String.ofList_toList, depth_train] at hstored
    simp only [hstored, Array.getElem?_eq_some_iff, mem_deletions]
    constructor
    · rintro ⟨word, ⟨hid, rfl⟩, hvariant⟩
      exact ⟨hid, hvariant⟩
    · rintro ⟨hid, hvariant⟩
      exact ⟨_, ⟨hid, rfl⟩, hvariant⟩
  case once =>
    intro variant
    have honce := filedOnce_train vocabulary k variant.toList
    rwa [String.ofList_toList] at honce
  case lookups =>
    intro w
    have hsubset := hfiled.placesFor_subset (Text.lower w.toList)
    exact ⟨hsubset, by rw [suggest?_eq_ite, if_pos hsubset]⟩

end Model

end Banknote.Fuzzy
