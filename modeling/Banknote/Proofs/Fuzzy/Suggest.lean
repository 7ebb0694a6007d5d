import Banknote.Fuzzy.Model
import Banknote.Proofs.Fuzzy.Deletions
import Banknote.Proofs.Fuzzy.Levenshtein
import Banknote.Proofs.KeyMap

/-!
# The suggestions of a model

`suggest_eq_words_within` says which words a trained model suggests, and in which order.

* `Model.Filed` is the invariant of training.  Under a deletion the index holds exactly the places
  of the words that the deletion comes from.
* `Model.mem_candidates` reads the candidates off that invariant: the words that have a deletion in
  common with the given one.
* `exists_common_deletion` is why no word within the bound is missed: the characters that an edit
  script keeps are a deletion of both words.
-/

namespace Banknote.Fuzzy

/-- Words at most `k` edits apart have a deletion in common. -/
theorem exists_common_deletion {k : Nat} {a b : List Char} (h : levenshtein a b ≤ k) :
    ∃ d, d ∈ deletions k a ∧ d ∈ deletions k b := by
  obtain ⟨d, hda, hdb, hla, hlb⟩ := (script_levenshtein a b).exists_common
  exact ⟨d, mem_deletions.2 ⟨hda, by omega⟩, mem_deletions.2 ⟨hdb, by omega⟩⟩

namespace Model

/-! ## The index -/

/-- Under each deletion the index holds the places of the words that it comes from. -/
def Filed (m : Model) : Prop :=
  ∀ (d : List Char) (id : Nat), id ∈ m.index.getD (String.ofList d) [] ↔
    ∃ word, m.vocabulary[id]? = some word ∧ d ∈ deletions m.depth word

/-- Filing a place under one deletion puts it in front there, and other deletions stay. -/
theorem getD_file (new : Nat) (index : Std.HashMap String (List Nat)) (d e : List Char) :
    (file new index e).getD (String.ofList d) [] =
      if d = e then new :: index.getD (String.ofList d) [] else index.getD (String.ofList d) [] := by
  simp only [file, Std.HashMap.getD_insert, beq_iff_eq, String.ofList_inj]
  by_cases h : d = e
  · simp [h]
  · simp [h, Ne.symm h]

theorem mem_getD_file {id new : Nat} {index : Std.HashMap String (List Nat)} {d e : List Char} :
    id ∈ (file new index e).getD (String.ofList d) [] ↔
      (d = e ∧ id = new) ∨ id ∈ index.getD (String.ofList d) [] := by
  rw [getD_file]
  by_cases h : d = e <;> simp [h]

/-- Filing one place under several deletions. -/
theorem mem_getD_foldl_file {id new : Nat} {index : Std.HashMap String (List Nat)}
    {ds : List (List Char)} {d : List Char} :
    id ∈ (ds.foldl (file new) index).getD (String.ofList d) [] ↔
      (d ∈ ds ∧ id = new) ∨ id ∈ index.getD (String.ofList d) [] := by
  induction ds generalizing index with
  | nil => simp
  | cons e ds ih =>
    rw [List.foldl_cons, ih, mem_getD_file, List.mem_cons]
    constructor
    · rintro (⟨hd, hid⟩ | ⟨hd, hid⟩ | hid)
      · exact .inl ⟨.inr hd, hid⟩
      · exact .inl ⟨.inl hd, hid⟩
      · exact .inr hid
    · rintro (⟨hd | hd, hid⟩ | hid)
      · exact .inr (.inl ⟨hd, hid⟩)
      · exact .inl ⟨hd, hid⟩
      · exact .inr (.inr hid)

theorem filed_empty (depth : Nat) : (empty depth).Filed := by
  intro d id
  simp [empty]

/-- What `add` does: nothing, or the word comes last and is filed under its deletions. -/
theorem add_cases (m : Model) (word : String) :
    (m.add word = m ∧ (Text.lower word.toList = [] ∨ Text.lower word.toList ∈ m.vocabulary)) ∨
      (Text.lower word.toList ≠ [] ∧ Text.lower word.toList ∉ m.vocabulary ∧
        m.add word =
          { m with
            vocabulary := m.vocabulary.push (Text.lower word.toList)
            index := (deletions m.depth (Text.lower word.toList)).foldl
              (file m.vocabulary.size) m.index }) := by
  simp only [add]
  split
  · rename_i h
    exact .inl ⟨rfl, by simpa using h⟩
  · rename_i h
    simp only [Bool.or_eq_true, List.isEmpty_iff, Array.contains_iff_mem, not_or] at h
    exact .inr ⟨h.1, h.2, rfl⟩

theorem add_depth (m : Model) (word : String) : (m.add word).depth = m.depth := by
  rcases add_cases m word with ⟨h, _⟩ | ⟨_, _, h⟩ <;> rw [h]

theorem Filed.add {m : Model} (h : m.Filed) (word : String) : (m.add word).Filed := by
  rcases add_cases m word with ⟨heq, _⟩ | ⟨_, _, heq⟩
  · rw [heq]
    exact h
  · rw [heq]
    intro d id
    simp only [mem_getD_foldl_file, h d id, Array.getElem?_push]
    by_cases hid : id = m.vocabulary.size
    · subst hid
      simp
    · simp [hid]

theorem foldl_add_filed {m : Model} (h : m.Filed) (words : List String) :
    (words.foldl Model.add m).Filed := by
  induction words generalizing m with
  | nil => exact h
  | cons word words ih => exact ih (h.add word)

theorem foldl_add_depth (m : Model) (words : List String) :
    (words.foldl Model.add m).depth = m.depth := by
  induction words generalizing m with
  | nil => rfl
  | cons word words ih => rw [List.foldl_cons, ih, add_depth]

/-- The index of a trained model is filed. -/
theorem filed_train (vocabulary : List String) (depth : Nat) : (train vocabulary depth).Filed :=
  foldl_add_filed (filed_empty depth) vocabulary

@[simp] theorem depth_train (vocabulary : List String) (depth : Nat) :
    (train vocabulary depth).depth = depth :=
  foldl_add_depth (empty depth) vocabulary

/-! ## The vocabulary -/

theorem mem_vocabulary_add {m : Model} {word : String} {v : List Char} :
    v ∈ (m.add word).vocabulary ↔
      (v = Text.lower word.toList ∧ v ≠ []) ∨ v ∈ m.vocabulary := by
  rcases add_cases m word with ⟨heq, hold⟩ | ⟨hne, _, heq⟩
  · rw [heq]
    constructor
    · exact Or.inr
    · rintro (⟨rfl, hv⟩ | hv)
      · exact hold.resolve_left hv
      · exact hv
  · rw [heq, Array.mem_push]
    constructor
    · rintro (hv | rfl)
      · exact .inr hv
      · exact .inl ⟨rfl, hne⟩
    · rintro (⟨hv, _⟩ | hv)
      · exact .inr hv
      · exact .inl hv

theorem mem_vocabulary_foldl_add {m : Model} {words : List String} {v : List Char} :
    v ∈ (words.foldl Model.add m).vocabulary ↔
      (∃ x ∈ words, v = Text.lower x.toList ∧ v ≠ []) ∨ v ∈ m.vocabulary := by
  induction words generalizing m with
  | nil => simp
  | cons word words ih =>
    rw [List.foldl_cons, ih, mem_vocabulary_add]
    simp only [List.mem_cons, exists_eq_or_imp]
    rw [← or_assoc, or_comm (a := ∃ x ∈ words, _)]

/-- A trained model holds the words in lower case, without the empty one. -/
theorem mem_vocabulary_train {vocabulary : List String} {depth : Nat} {v : List Char} :
    v ∈ (train vocabulary depth).vocabulary ↔
      ∃ x ∈ vocabulary, v = Text.lower x.toList ∧ v ≠ [] := by
  rw [train, mem_vocabulary_foldl_add]
  simp [empty]

/-! ## Suggestions -/

/-- The candidates are the words that have a deletion in common with the given one. -/
theorem mem_candidates {m : Model} (h : m.Filed) {word : List Char} {v : String} :
    v ∈ m.candidates word ↔
      v.toList ∈ m.vocabulary ∧ ∃ d, d ∈ deletions m.depth word ∧ d ∈ deletions m.depth v.toList := by
  simp only [candidates, KeyMap.mem_keys_ofList, List.map_map, List.mem_map, List.mem_filterMap,
    List.mem_flatMap]
  constructor
  · rintro ⟨w, ⟨id, ⟨d, hd, hid⟩, hw⟩, rfl⟩
    obtain ⟨w', hw', hdw⟩ := (h d id).1 hid
    obtain rfl : w = w' := Option.some.inj (hw.symm.trans hw')
    simp only [Function.comp_apply, String.toList_ofList]
    exact ⟨Array.mem_of_getElem? hw, d, hd, hdw⟩
  · rintro ⟨hv, d, hd, hdv⟩
    obtain ⟨id, hid⟩ := Array.mem_iff_getElem?.1 hv
    exact ⟨v.toList, ⟨id, ⟨d, hd, (h d id).2 ⟨v.toList, hid, hdv⟩⟩, hid⟩, by simp⟩

/-- The suggestions are the words within the bound that differ from the given one. -/
theorem mem_suggest {m : Model} (h : m.Filed) {w v : String} :
    v ∈ m.suggest w ↔
      v.toList ∈ m.vocabulary ∧ v.toList ≠ Text.lower w.toList ∧
        levenshtein v.toList (Text.lower w.toList) ≤ m.depth := by
  simp only [suggest, List.mem_filter, mem_candidates h, distance_eq_levenshtein,
    Bool.and_eq_true, bne_iff_ne, decide_eq_true_eq]
  constructor
  · rintro ⟨⟨hv, _⟩, hne, hle⟩
    exact ⟨hv, hne, hle⟩
  · rintro ⟨hv, hne, hle⟩
    obtain ⟨d, hdv, hdw⟩ := exists_common_deletion hle
    exact ⟨⟨hv, d, hdw, hdv⟩, hne, hle⟩

/-- The suggestions ascend strictly. -/
theorem suggest_ascending (m : Model) (w : String) : (m.suggest w).Pairwise (· < ·) :=
  List.Pairwise.filter _ (KeyMap.keys_ascending _)

/-- The suggestions of a trained model are the words of its vocabulary within the bound. -/
theorem mem_suggest_train {vocabulary : List String} {k : Nat} {w v : String} :
    v ∈ (train vocabulary k).suggest w ↔
      (∃ x ∈ vocabulary, v.toList = Text.lower x.toList) ∧ v ≠ "" ∧
        v.toList ≠ Text.lower w.toList ∧ levenshtein v.toList (Text.lower w.toList) ≤ k := by
  have hempty : v.toList ≠ [] ↔ v ≠ "" := not_congr String.toList_eq_nil_iff
  rw [mem_suggest (filed_train vocabulary k), mem_vocabulary_train, depth_train]
  constructor
  · rintro ⟨⟨x, hx, hv, hne⟩, hw, hle⟩
    exact ⟨⟨x, hx, hv⟩, hempty.1 hne, hw, hle⟩
  · rintro ⟨⟨x, hx, hv⟩, hne, hw, hle⟩
    exact ⟨⟨x, hx, hv, hempty.2 hne⟩, hw, hle⟩

/-- A trained model suggests the words of its vocabulary that are within the bound, each once and in
ascending order. -/
theorem suggest_eq_words_within (vocabulary : List String) (k : Nat) (w : String) :
    ((train vocabulary k).suggest w).Pairwise (· < ·) ∧
      ∀ v : String, v ∈ (train vocabulary k).suggest w ↔
        (∃ x ∈ vocabulary, v.toList = Text.lower x.toList) ∧ v ≠ "" ∧
          v.toList ≠ Text.lower w.toList ∧ levenshtein v.toList (Text.lower w.toList) ≤ k :=
  ⟨suggest_ascending _ w, fun _ => mem_suggest_train⟩

end Model

end Banknote.Fuzzy
