import Banknote.Proofs.Fuzzy.Deletions
import Mathlib.Data.List.Nodup

/-!
# The rounds that the deletions of a word take

`deletions k word` deletes one character more in every round and may go through `k` of them, but a
round that finds nothing new is the last one.

* Each text once.  `Kept.nodup_foldl` is about one layer.  Two layers have no text in common, since
  their texts lack different numbers of characters (`IsLayer.nodup_layers`).
* Rounds.  `searched` goes through the rounds with all that was found so far, drops what was found
  before and counts the rounds.  `IsLayer.searched_eq` is the induction, from any layer on.  Nothing
  is ever dropped, and the layers of a word are not empty until all its characters are deleted; the
  round after that one finds nothing.
* `deletions_in_rounds` has both, and what `mem_deletions` says about the texts.
-/

namespace Banknote.Fuzzy

/-! ## Each text once -/

theorem Kept.Sound.nodup_add {k : Kept} (h : k.Sound) (hk : k.kept.Nodup) (new : List Char) :
    (k.add new).kept.Nodup := by
  rw [Kept.add_eq]
  split
  · exact hk
  · rename_i hseen
    exact List.nodup_cons.2 ⟨fun hmem => hseen ((h new).2 hmem), hk⟩

theorem Kept.Sound.nodup_foldl {k : Kept} (h : k.Sound) (hk : k.kept.Nodup)
    (texts : List (List Char)) : (texts.foldl Kept.add k).kept.Nodup := by
  induction texts generalizing k with
  | nil => exact hk
  | cons new texts ih => exact ih (h.add new) (h.nodup_add hk new)

theorem nodup_distinct (texts : List (List Char)) : (distinct texts).Nodup := by
  rw [distinct, List.nodup_reverse]
  exact Kept.sound_empty.nodup_foldl List.nodup_nil texts

theorem nodup_nextLayer (layer : List (List Char)) : (nextLayer layer).Nodup := nodup_distinct _

/-- The layers from the `n`-th one on hold no text twice. -/
theorem IsLayer.nodup_layers {n : Nat} {word : List Char} {layer : List (List Char)}
    (h : IsLayer n word layer) (hlayer : layer.Nodup) (k : Nat) : (layers k layer).Nodup := by
  induction k generalizing n layer with
  | zero => exact hlayer
  | succ k ih =>
    rw [layers]
    split
    · exact hlayer
    · refine List.nodup_append.2 ⟨hlayer, ih h.next (nodup_nextLayer layer), ?_⟩
      rintro d hd e he rfl
      have hlength : word.length = d.length + n := ((h d).1 hd).2
      have hlength' : d.length + (n + 1) ≤ word.length := ((h.next.mem_layers k d).1 he).2.1
      omega

/-! ## Rounds -/

/-- What at most `k` rounds find from a layer on, with the number of rounds.  `found` is what was
found so far, the layer included, and a round drops it.  A round that finds nothing new is counted,
too. -/
def searched : Nat → List (List Char) → List (List Char) → List (List Char) × Nat
  | 0, found, _ => (found, 0)
  | k + 1, found, layer =>
    let next := (nextLayer layer).filter fun d => !found.contains d
    if next.isEmpty then (found, 1)
    else
      let later := searched k (found ++ next) next
      (later.1, later.2 + 1)

/-- A layer holds a text exactly if the word has as many characters as its texts lack. -/
theorem IsLayer.isEmpty_eq_false_iff {n : Nat} {word : List Char} {layer : List (List Char)}
    (h : IsLayer n word layer) : layer.isEmpty = false ↔ n ≤ word.length := by
  rw [List.isEmpty_eq_false_iff]
  constructor
  · intro hne
    obtain ⟨d, hd⟩ := List.exists_mem_of_ne_nil layer hne
    have hlength := ((h d).1 hd).2
    omega
  · rintro hle rfl
    exact absurd h.length_lt (Nat.not_lt.2 hle)

/-- A round finds nothing that was found before: it deletes one character more. -/
theorem IsLayer.filter_next {n : Nat} {word : List Char} {layer : List (List Char)}
    (h : IsLayer n word layer) {found : List (List Char)}
    (hfound : ∀ d ∈ found, word.length ≤ d.length + n) :
    (nextLayer layer).filter (fun d => !found.contains d) = nextLayer layer := by
  refine List.filter_eq_self.2 fun d hd => ?_
  have hlength : word.length = d.length + (n + 1) := ((h.next d).1 hd).2
  rw [Bool.not_eq_true', List.contains_eq_mem, decide_eq_false_iff_not]
  intro hmem
  have hlonger := hfound d hmem
  omega

/-- From the `n`-th layer on, the layers are found, and there is a round for each character that is
left and one more, unless there are only `k` rounds. -/
theorem IsLayer.searched_eq {n : Nat} {word : List Char} {layer : List (List Char)}
    (h : IsLayer n word layer) (hn : n ≤ word.length) (k : Nat) (before : List (List Char))
    (hbefore : ∀ d ∈ before, word.length ≤ d.length + n) :
    searched k (before ++ layer) layer =
      (before ++ layers k layer, min k (word.length - n + 1)) := by
  induction k generalizing n layer before with
  | zero => exact Prod.ext rfl (Nat.zero_min _).symm
  | succ k ih =>
    have hfound : ∀ d ∈ before ++ layer, word.length ≤ d.length + n := by
      intro d hd
      rcases List.mem_append.1 hd with hd | hd
      · exact hbefore d hd
      · exact Nat.le_of_eq ((h d).1 hd).2
    rw [searched, layers, h.filter_next hfound]
    split
    · rename_i hempty
      have hlast : ¬ n + 1 ≤ word.length := by
        rw [← h.next.isEmpty_eq_false_iff, hempty]
        simp
      exact Prod.ext rfl (by dsimp only; omega)
    · rename_i hnonempty
      have hnext : n + 1 ≤ word.length := by
        rw [← h.next.isEmpty_eq_false_iff]
        simpa using hnonempty
      have hlater := ih h.next hnext (before ++ layer) fun d hd => Nat.le_succ_of_le (hfound d hd)
      refine Prod.ext ?_ ?_
      · simp only [hlater]
        exact List.append_assoc _ _ _
      · simp only [hlater]
        omega

/-- The deletions of a word take `k` rounds, or one round more than the word has characters if `k`
is greater.  They hold the word and all else that at most `k` deletions leave of it, each once. -/
theorem deletions_in_rounds (k : Nat) (word : List Char) :
    searched k [word] [word] = (deletions k word, min k (word.length + 1)) ∧
      (deletions k word).Nodup ∧ word ∈ deletions k word ∧
        ∀ d, d ∈ deletions k word ↔ d.Sublist word ∧ word.length ≤ d.length + k := by
  have hlayer := isLayer_zero word
  refine ⟨?_, ?_, ?_, fun _ => mem_deletions⟩
  · exact hlayer.searched_eq (Nat.zero_le _) k [] (by simp)
  · exact hlayer.nodup_layers (List.nodup_singleton word) k
  · exact mem_deletions.2 ⟨List.Sublist.refl word, Nat.le_add_right _ k⟩

/-- The repeated letter is not deleted twice. -/
example : deletions 1 ['a', 'b', 'b'] = [['a', 'b', 'b'], ['b', 'b'], ['a', 'b']] := by cbv

end Banknote.Fuzzy
