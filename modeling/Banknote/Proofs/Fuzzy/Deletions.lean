import Banknote.Fuzzy.Deletions

/-!
# What the deletions of a word are

`mem_deletions` says that `deletions k word` holds exactly the subsequences of the word that lack at
most `k` of its characters.

`distinct` loses no text: `Kept.Sound` is the invariant of its fold, that the set of what was seen
and the list of what was kept agree.  `IsLayer n word layer` is the invariant of the layers: the
layer holds the subsequences that lack exactly `n` characters.  `IsLayer.next` is the step from one
layer to the next, and `IsLayer.mem_layers` is the induction on the number of layers.
-/

namespace Banknote.Fuzzy

/-! ## Keeping each text once -/

/-- What was seen is what was kept. -/
def Kept.Sound (k : Kept) : Prop :=
  ∀ text, k.seen.contains (String.ofList text) = true ↔ text ∈ k.kept

theorem Kept.add_eq (k : Kept) (text : List Char) :
    k.add text =
      if k.seen.contains (String.ofList text) then k
      else ⟨k.seen.insert (String.ofList text), text :: k.kept⟩ := rfl

theorem Kept.sound_empty : Kept.Sound ⟨∅, []⟩ := by
  intro text
  simp

theorem Kept.Sound.mem_add {k : Kept} (h : k.Sound) (new text : List Char) :
    text ∈ (k.add new).kept ↔ text = new ∨ text ∈ k.kept := by
  rw [Kept.add_eq]
  split
  · rename_i hseen
    have hkept : new ∈ k.kept := (h new).1 hseen
    constructor
    · exact Or.inr
    · rintro (rfl | htext)
      · exact hkept
      · exact htext
  · exact List.mem_cons

theorem Kept.Sound.add {k : Kept} (h : k.Sound) (new : List Char) : (k.add new).Sound := by
  intro text
  rw [h.mem_add new text]
  rw [Kept.add_eq]
  split
  · rename_i hseen
    rw [h text]
    constructor
    · exact Or.inr
    · rintro (rfl | htext)
      · exact (h text).1 hseen
      · exact htext
  · rw [Std.HashSet.contains_insert, Bool.or_eq_true, h text, beq_iff_eq, String.ofList_inj,
      eq_comm]

theorem Kept.Sound.mem_foldl {k : Kept} (h : k.Sound) (texts : List (List Char))
    (text : List Char) : text ∈ (texts.foldl Kept.add k).kept ↔ text ∈ texts ∨ text ∈ k.kept := by
  induction texts generalizing k with
  | nil => simp
  | cons new texts ih =>
    rw [List.foldl_cons, ih (h.add new), h.mem_add new text, List.mem_cons, ← or_assoc,
      or_comm (a := text ∈ texts)]

/-- Keeping each text once loses none and adds none. -/
theorem mem_distinct {texts : List (List Char)} {text : List Char} :
    text ∈ distinct texts ↔ text ∈ texts := by
  rw [distinct, List.mem_reverse, Kept.sound_empty.mem_foldl]
  simp

/-! ## One deletion -/

/-- One deletion leads to the subsequences that are shorter by one. -/
theorem mem_dropOne {d word : List Char} :
    d ∈ dropOne word ↔ d.Sublist word ∧ word.length = d.length + 1 := by
  induction word generalizing d with
  | nil => simp [dropOne]
  | cons c word ih =>
    rw [dropOne, List.mem_cons, List.mem_map]
    constructor
    · rintro (rfl | ⟨e, he, rfl⟩)
      · exact ⟨List.sublist_cons_self c d, rfl⟩
      · obtain ⟨hsub, hlen⟩ := ih.1 he
        exact ⟨hsub.cons_cons c, by simp [hlen]⟩
    · rintro ⟨hsub, hlen⟩
      rw [List.length_cons, Nat.add_right_cancel_iff] at hlen
      rcases List.sublist_cons_iff.1 hsub with hrest | ⟨e, rfl, hrest⟩
      · exact .inl (hrest.eq_of_length hlen.symm)
      · exact .inr ⟨e, ih.2 ⟨hrest, hlen⟩, rfl⟩

/-- Between a shorter subsequence and the word there is one that is longer by one. -/
theorem exists_sublist_between {d word : List Char} (h : d.Sublist word)
    (hlen : d.length < word.length) :
    ∃ e : List Char, d.Sublist e ∧ e.Sublist word ∧ e.length = d.length + 1 := by
  induction h with
  | slnil => simp at hlen
  | @cons d word c hsub ih =>
    exact ⟨c :: d, List.sublist_cons_self c d, hsub.cons_cons c, rfl⟩
  | @cons_cons d word c hsub ih =>
    rw [List.length_cons, List.length_cons] at hlen
    obtain ⟨e, hde, hew, he⟩ := ih (by omega)
    exact ⟨c :: e, hde.cons_cons c, hew.cons_cons c, by simp [he]⟩

/-! ## Layers -/

/-- A layer: the subsequences of a word that lack `n` of its characters. -/
def IsLayer (n : Nat) (word : List Char) (layer : List (List Char)) : Prop :=
  ∀ d, d ∈ layer ↔ d.Sublist word ∧ word.length = d.length + n

theorem isLayer_zero (word : List Char) : IsLayer 0 word [word] := by
  intro d
  rw [List.mem_singleton]
  constructor
  · rintro rfl
    exact ⟨List.Sublist.refl d, rfl⟩
  · rintro ⟨hsub, hlen⟩
    exact hsub.eq_of_length hlen.symm

/-- The layer after a layer lacks one character more. -/
theorem IsLayer.next {n : Nat} {word : List Char} {layer : List (List Char)}
    (h : IsLayer n word layer) : IsLayer (n + 1) word (nextLayer layer) := by
  intro d
  rw [nextLayer, mem_distinct, List.mem_flatMap]
  constructor
  · rintro ⟨e, he, hd⟩
    obtain ⟨hew, hlen⟩ := (h e).1 he
    obtain ⟨hde, hlen'⟩ := mem_dropOne.1 hd
    exact ⟨hde.trans hew, by omega⟩
  · rintro ⟨hsub, hlen⟩
    obtain ⟨e, hde, hew, he⟩ := exists_sublist_between hsub (by omega)
    exact ⟨e, (h e).2 ⟨hew, by omega⟩, mem_dropOne.2 ⟨hde, he⟩⟩

/-- A layer without texts lies beyond the length of the word. -/
theorem IsLayer.length_lt {n : Nat} {word : List Char} (h : IsLayer n word []) :
    word.length < n := by
  apply Nat.lt_of_not_ge
  intro hle
  have hmem : word.take (word.length - n) ∈ ([] : List (List Char)) :=
    (h _).2 ⟨List.take_sublist _ _, by rw [List.length_take]; omega⟩
  simp at hmem

/-- From the `n`-th layer on, `k` further layers hold what lacks up to `n + k` characters. -/
theorem IsLayer.mem_layers {n : Nat} {word : List Char} {layer : List (List Char)}
    (h : IsLayer n word layer) (k : Nat) (d : List Char) :
    d ∈ layers k layer ↔
      d.Sublist word ∧ d.length + n ≤ word.length ∧ word.length ≤ d.length + n + k := by
  induction k generalizing n layer with
  | zero =>
    rw [layers, h d]
    constructor
    · rintro ⟨hsub, hlen⟩
      exact ⟨hsub, by omega, by omega⟩
    · rintro ⟨hsub, hle, hge⟩
      exact ⟨hsub, by omega⟩
  | succ k ih =>
    have hnext := h.next
    rw [layers]
    split
    · rename_i hempty
      rw [List.isEmpty_iff] at hempty
      rw [hempty] at hnext
      have hshort := hnext.length_lt
      rw [h d]
      constructor
      · rintro ⟨hsub, hlen⟩
        exact ⟨hsub, by omega, by omega⟩
      · rintro ⟨hsub, hle, hge⟩
        exact ⟨hsub, by omega⟩
    · rw [List.mem_append, h d, ih hnext]
      constructor
      · rintro (⟨hsub, hlen⟩ | ⟨hsub, hle, hge⟩)
        · exact ⟨hsub, by omega, by omega⟩
        · exact ⟨hsub, by omega, by omega⟩
      · rintro ⟨hsub, hle, hge⟩
        by_cases hlen : word.length = d.length + n
        · exact .inl ⟨hsub, hlen⟩
        · exact .inr ⟨hsub, by omega, by omega⟩

/-- The deletions of a word are its subsequences that lack at most `k` characters. -/
theorem mem_deletions {k : Nat} {word d : List Char} :
    d ∈ deletions k word ↔ d.Sublist word ∧ word.length ≤ d.length + k := by
  rw [deletions, (isLayer_zero word).mem_layers]
  constructor
  · rintro ⟨hsub, _, hge⟩
    exact ⟨hsub, hge⟩
  · rintro ⟨hsub, hge⟩
    exact ⟨hsub, hsub.length_le, hge⟩

end Banknote.Fuzzy
