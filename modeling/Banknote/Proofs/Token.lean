import Banknote.Token
import Mathlib.Data.List.Forall2
import Mathlib.Tactic.ByContra

/-!
# The tokens of texts

A text is cut into its maximal runs of characters that are not blank.

* Words.  `words_append_blank` says that a blank cuts a text in two, and `words_of_letters` that a
  text without blanks is one word; every other statement about words follows from these.
* Runs.  `IsRun` says where a maximal run lies in a text.  A blank cuts the runs of a text in two
  as well (`isRun_append_blank_iff`), so the words are the runs (`exists_runs`).
* Tokens.  A run is not empty and has no blanks, so where words are made tokens there is nothing to
  trim or to drop (`ofText_eq_words`).  `toList_concat_ofTexts` puts tokens together to the texts
  without their blanks, and `ofText_spaced` cuts tokens that were joined with a space.

`Token.ofTexts_maximal_runs` puts these together.
-/

namespace Banknote

namespace Text

/-! ## Words -/

theorem flatten_closeWord (word : List Char) (later : List (List Char)) :
    (closeWord word later).flatten = word.reverse ++ later.flatten := by
  cases word <;> rfl

theorem flatten_wordsFrom (word text : List Char) :
    (wordsFrom word text).flatten = word.reverse ++ dropBlanks text := by
  induction text generalizing word with
  | nil => exact flatten_closeWord word []
  | cons c rest ih =>
    rw [wordsFrom]
    split
    · rename_i hblank
      rw [flatten_closeWord, ih]
      simp [dropBlanks, hblank]
    · rename_i hblank
      rw [ih]
      simp [dropBlanks, hblank]

/-- The words of a text are the text without its blanks. -/
theorem flatten_words (text : List Char) : (words text).flatten = dropBlanks text :=
  flatten_wordsFrom [] text

theorem wordsFrom_append_blank {c : Char} (hc : isBlank c = true) (word text later : List Char) :
    wordsFrom word (text ++ c :: later) = wordsFrom word text ++ words later := by
  induction text generalizing word with
  | nil =>
    simp only [List.nil_append, wordsFrom, hc, if_true]
    cases word <;> rfl
  | cons d text ih =>
    rw [List.cons_append, wordsFrom, wordsFrom]
    split
    · rw [ih]
      cases word <;> rfl
    · exact ih (d :: word)

/-- A blank cuts a text in two. -/
theorem words_append_blank {c : Char} (hc : isBlank c = true) (text later : List Char) :
    words (text ++ c :: later) = words text ++ words later :=
  wordsFrom_append_blank hc [] text later

theorem wordsFrom_of_letters {text : List Char} (h : ∀ c ∈ text, isBlank c = false)
    (word : List Char) : wordsFrom word text = closeWord (text.reverse ++ word) [] := by
  induction text generalizing word with
  | nil => rfl
  | cons c text ih =>
    obtain ⟨hc, hrest⟩ := List.forall_mem_cons.1 h
    rw [wordsFrom, if_neg (by simp [hc]), ih hrest, List.reverse_cons, List.append_assoc,
      List.singleton_append]

/-- A text without blanks is one word, if it is not empty. -/
theorem words_of_letters {text : List Char} (hne : text ≠ [])
    (h : ∀ c ∈ text, isBlank c = false) : words text = [text] := by
  rw [words, wordsFrom_of_letters h, closeWord, if_neg (by simpa using hne), List.append_nil,
    List.reverse_reverse]

/-- A text has no blank, or a first one. -/
theorem letters_or_exists_blank (text : List Char) :
    (∀ c ∈ text, isBlank c = false) ∨
      ∃ before c later, text = before ++ c :: later ∧ isBlank c = true := by
  by_cases h : ∀ c ∈ text, isBlank c = false
  · exact .inl h
  · push Not at h
    obtain ⟨c, hmem, hc⟩ := h
    obtain ⟨before, later, rfl⟩ := List.append_of_mem hmem
    exact .inr ⟨before, c, later, rfl, by simpa using hc⟩

/-! ## Runs -/

/-- A stretch of a text, from `start` up to `stop`, that is not empty, has no blank and cannot be
made longer at either end without taking one in. -/
structure IsRun (text : List Char) (start stop : Nat) : Prop where
  nonempty : start < stop
  within : stop ≤ text.length
  letters : ∀ i c, start ≤ i → i < stop → text[i]? = some c → isBlank c = false
  opened : ∀ i c, start = i + 1 → text[i]? = some c → isBlank c = true
  closed : ∀ c, text[stop]? = some c → isBlank c = true

/-- A text without blanks has no other run than itself. -/
theorem isRun_of_letters_iff {text : List Char} (h : ∀ c ∈ text, isBlank c = false)
    {start stop : Nat} :
    IsRun text start stop ↔ text ≠ [] ∧ start = 0 ∧ stop = text.length := by
  have hletter : ∀ i < text.length, ∃ c, text[i]? = some c ∧ isBlank c = false := fun i hi =>
    ⟨text[i], List.getElem?_eq_getElem hi, h _ (List.getElem_mem hi)⟩
  constructor
  · intro hrun
    have hnonempty := hrun.nonempty
    have hwithin := hrun.within
    have hstart : start = 0 := by
      by_contra hstart
      obtain ⟨c, hget, hc⟩ := hletter (start - 1) (by omega)
      rw [hrun.opened (start - 1) c (by omega) hget] at hc
      cases hc
    have hstop : stop = text.length := by
      by_contra hstop
      obtain ⟨c, hget, hc⟩ := hletter stop (by omega)
      rw [hrun.closed c hget] at hc
      cases hc
    refine ⟨?_, hstart, hstop⟩
    rintro rfl
    rw [List.length_nil] at hwithin
    omega
  · rintro ⟨hne, rfl, rfl⟩
    refine ⟨List.length_pos_iff.2 hne, Nat.le_refl _, fun i c _ _ hget => ?_, fun i c hi => ?_,
      fun c hget => ?_⟩
    · exact h c (List.mem_of_getElem? hget)
    · omega
    · rw [List.getElem?_eq_none (Nat.le_refl _)] at hget
      cases hget

/-- A blank cuts the runs of a text in two. -/
theorem isRun_append_blank_iff {c : Char} (hc : isBlank c = true) {text later : List Char}
    {start stop : Nat} : IsRun (text ++ c :: later) start stop ↔
      IsRun text start stop ∨ ∃ s t, start = text.length + 1 + s ∧ stop = text.length + 1 + t ∧
        IsRun later s t := by
  have hfront : ∀ i < text.length, (text ++ c :: later)[i]? = text[i]? := by grind
  have hblank : (text ++ c :: later)[text.length]? = some c := by simp
  have hback : ∀ i, (text ++ c :: later)[text.length + 1 + i]? = later[i]? := by grind
  have hlength : (text ++ c :: later).length = text.length + 1 + later.length := by simp; omega
  constructor
  · intro h
    have hnonempty := h.nonempty
    have hwithin := h.within
    by_cases hle : stop ≤ text.length
    · refine .inl ⟨hnonempty, hle, fun i d hi hi' hd => ?_, fun i d hi hd => ?_, fun d hd => ?_⟩
      · exact h.letters i d hi hi' (by rwa [hfront i (by omega)])
      · exact h.opened i d hi (by rwa [hfront i (by omega)])
      · have hlt : stop < text.length := (List.getElem?_eq_some_iff.1 hd).1
        exact h.closed d (by rwa [hfront stop hlt])
    · have hstart : text.length < start := by
        by_contra hstart
        rw [h.letters text.length c (by omega) (by omega) hblank] at hc
        cases hc
      obtain ⟨s, rfl⟩ := Nat.exists_eq_add_of_le (show text.length + 1 ≤ start by omega)
      obtain ⟨t, rfl⟩ := Nat.exists_eq_add_of_le (show text.length + 1 ≤ stop by omega)
      refine .inr ⟨s, t, rfl, rfl, by omega, by omega, fun i d hi hi' hd => ?_, fun i d hi hd => ?_,
        fun d hd => ?_⟩
      · exact h.letters (text.length + 1 + i) d (by omega) (by omega) (by rwa [hback])
      · exact h.opened (text.length + 1 + i) d (by omega) (by rwa [hback])
      · exact h.closed d (by rwa [hback])
  · rintro (h | ⟨s, t, rfl, rfl, h⟩)
    · have hnonempty := h.nonempty
      have hwithin := h.within
      refine ⟨hnonempty, by omega, fun i d hi hi' hd => ?_, fun i d hi hd => ?_, fun d hd => ?_⟩
      · exact h.letters i d hi hi' (by rwa [hfront i (by omega)] at hd)
      · exact h.opened i d hi (by rwa [hfront i (by omega)] at hd)
      · rcases Nat.lt_or_eq_of_le hwithin with hlt | rfl
        · exact h.closed d (by rwa [hfront stop hlt] at hd)
        · obtain rfl : c = d := Option.some.inj (hblank.symm.trans hd)
          exact hc
    · have hnonempty := h.nonempty
      have hwithin := h.within
      refine ⟨by omega, by omega, fun i d hi hi' hd => ?_, fun i d hi hd => ?_, fun d hd => ?_⟩
      · obtain ⟨j, rfl⟩ := Nat.exists_eq_add_of_le (show text.length + 1 ≤ i by omega)
        rw [hback] at hd
        exact h.letters j d (by omega) (by omega) hd
      · cases s with
        | zero =>
          obtain rfl : i = text.length := by omega
          obtain rfl : c = d := Option.some.inj (hblank.symm.trans hd)
          exact hc
        | succ s =>
          obtain rfl : i = text.length + 1 + s := by omega
          rw [hback] at hd
          exact h.opened s d rfl hd
      · rw [hback] at hd
        exact h.closed d hd

/-- The maximal runs of a text, in order, and what is written in them. -/
structure Runs (text : List Char) (runs : List (Nat × Nat)) (words : List (List Char)) : Prop where
  ordered : runs.Pairwise fun r s => r.2 < s.1
  mem_iff : ∀ r, r ∈ runs ↔ IsRun text r.1 r.2
  words_eq : words = runs.map fun r => text.extract r.1 r.2

theorem extract_append_cons (text later : List Char) (c : Char) (start stop : Nat) :
    (text ++ c :: later).extract (text.length + 1 + start) (text.length + 1 + stop) =
      later.extract start stop := by
  rw [List.extract_eq_take_drop, List.extract_eq_take_drop, Nat.add_sub_add_left, Nat.add_assoc,
    List.drop_length_add_append, Nat.add_comm 1 start, List.drop_succ_cons]

/-- The runs on both sides of a blank are the runs of the whole. -/
theorem Runs.append_blank {c : Char} (hc : isBlank c = true) {text later : List Char}
    {runs runs' : List (Nat × Nat)} {ws ws' : List (List Char)} (h : Runs text runs ws)
    (h' : Runs later runs' ws') :
    Runs (text ++ c :: later)
      (runs ++ runs'.map fun r => (text.length + 1 + r.1, text.length + 1 + r.2)) (ws ++ ws') := by
  refine ⟨?_, fun r => ?_, ?_⟩
  · rw [List.pairwise_append, List.pairwise_map]
    refine ⟨h.ordered, h'.ordered.imp fun hlt => by omega, fun r hr s hs => ?_⟩
    obtain ⟨s, _, rfl⟩ := List.mem_map.1 hs
    have hwithin := ((h.mem_iff r).1 hr).within
    simp only
    omega
  · rw [isRun_append_blank_iff hc, List.mem_append, h.mem_iff, List.mem_map]
    refine or_congr_right ⟨?_, ?_⟩
    · rintro ⟨s, hs, rfl⟩
      exact ⟨s.1, s.2, rfl, rfl, (h'.mem_iff s).1 hs⟩
    · rintro ⟨s, t, hs, ht, hrun⟩
      exact ⟨(s, t), (h'.mem_iff (s, t)).2 hrun, Prod.ext hs.symm ht.symm⟩
  · rw [h.words_eq, h'.words_eq, List.map_append, List.map_map]
    congr 1
    · refine List.map_congr_left fun r hr => ?_
      have hnonempty := ((h.mem_iff r).1 hr).nonempty
      have hwithin := ((h.mem_iff r).1 hr).within
      rw [List.extract_eq_take_drop, List.extract_eq_take_drop,
        List.drop_append_of_le_length (by omega),
        List.take_append_of_le_length (by rw [List.length_drop]; omega)]
    · exact List.map_congr_left fun r _ => (extract_append_cons text later c r.1 r.2).symm

/-- The words of a text are its maximal runs. -/
theorem exists_runs (text : List Char) : ∃ runs, Runs text runs (words text) := by
  induction hn : text.length using Nat.strongRecOn generalizing text with
  | ind n ih =>
    subst hn
    rcases letters_or_exists_blank text with hletters | ⟨before, c, later, rfl, hc⟩
    · by_cases hne : text = []
      · subst hne
        refine ⟨[], .nil, fun r => ?_, rfl⟩
        simp [isRun_of_letters_iff]
      · refine ⟨[(0, text.length)], List.pairwise_singleton _ _, fun r => ?_, ?_⟩
        · rw [isRun_of_letters_iff hletters, List.mem_singleton, Prod.ext_iff]
          simp [hne]
        · rw [words_of_letters hne hletters]
          simp
    · have hlength : (before ++ c :: later).length = before.length + later.length + 1 := by
        simp; omega
      obtain ⟨runs, hruns⟩ := ih before.length (by omega) before rfl
      obtain ⟨runs', hruns'⟩ := ih later.length (by omega) later rfl
      rw [words_append_blank hc]
      exact ⟨_, hruns.append_blank hc hruns'⟩

end Text

namespace Token

/-! ## Tokens -/

/-- A text that is a single word. -/
def IsWord (token : String) : Prop := token ≠ "" ∧ ∀ c ∈ token.toList, Text.isBlank c = false

/-- Texts that are the maximal runs of a text, in order. -/
def AreRuns (text : String) (tokens : List String) : Prop :=
  ∃ runs, Text.Runs text.toList runs (tokens.map String.toList)

theorem areRuns_words (text : String) :
    AreRuns text ((Text.words text.toList).map String.ofList) := by
  obtain ⟨runs, hruns⟩ := Text.exists_runs text.toList
  refine ⟨runs, ?_⟩
  rw [List.map_map]
  simpa [Function.comp_def] using hruns

theorem isWord_of_areRuns {text : String} {tokens : List String} (h : AreRuns text tokens)
    {token : String} (hmem : token ∈ tokens) : IsWord token := by
  obtain ⟨runs, hruns⟩ := h
  have htoken : token.toList ∈ tokens.map String.toList := List.mem_map_of_mem hmem
  rw [hruns.words_eq, List.mem_map] at htoken
  obtain ⟨⟨start, stop⟩, hr, heq⟩ := htoken
  have hrun := (hruns.mem_iff _).1 hr
  have hnonempty := hrun.nonempty
  have hwithin := hrun.within
  simp only at heq hnonempty hwithin
  constructor
  · rintro rfl
    have hlength := congrArg List.length heq
    simp at hlength
    omega
  · intro c hc
    rw [← heq] at hc
    obtain ⟨i, hi, rfl⟩ := List.getElem_of_mem hc
    simp at hi
    refine hrun.letters (start + i) _ (by simp) (by simp; omega) ?_
    simp

/-- A text without blanks is not trimmed. -/
theorem trim_of_letters {text : List Char} (h : ∀ c ∈ text, Text.isBlank c = false) :
    Text.trim text = text := by
  have hkept : ∀ l : List Char, (∀ c ∈ l, Text.isBlank c = false) →
      l.dropWhile Text.isBlank = l := by
    intro l hl
    cases l with
    | nil => rfl
    | cons c rest => rw [List.dropWhile_cons, if_neg (by simp [hl c List.mem_cons_self])]
  rw [Text.trim, hkept text h, hkept _ fun c hc => h c (List.mem_reverse.1 hc), List.reverse_reverse]

/-- Nothing is trimmed or dropped of the words of a text. -/
theorem ofText_eq_words (text : String) :
    ofText text = (Text.words text.toList).map String.ofList := by
  have hwords : ∀ word ∈ Text.words text.toList, Text.trim word = word ∧ word ≠ [] := by
    intro word hword
    have hmem := List.mem_map_of_mem (f := String.ofList) hword
    obtain ⟨hne, hletters⟩ := isWord_of_areRuns (areRuns_words text) hmem
    rw [String.toList_ofList] at hletters
    refine ⟨trim_of_letters hletters, ?_⟩
    rintro rfl
    exact hne rfl
  have htrimmed : (Text.words text.toList).map Text.trim = Text.words text.toList :=
    (List.map_congr_left fun word hword => (hwords word hword).1).trans (List.map_id _)
  rw [ofText, htrimmed, List.filter_eq_self.2 fun word hword => by simpa using (hwords word hword).2]

theorem areRuns_ofText (text : String) : AreRuns text (ofText text) := by
  rw [ofText_eq_words]
  exact areRuns_words text

/-- The tokens of texts are words. -/
theorem isWord_of_mem_ofTexts {texts : List String} {token : String} (h : token ∈ ofTexts texts) :
    IsWord token := by
  obtain ⟨text, _, htoken⟩ := List.mem_flatMap.1 h
  exact isWord_of_areRuns (areRuns_ofText text) htoken

theorem toList_concat (tokens : List String) :
    (String.intercalate "" tokens).toList = tokens.flatMap String.toList := by
  induction tokens with
  | nil => rfl
  | cons token tokens ih =>
    cases tokens with
    | nil => simp
    | cons next tokens =>
      rw [String.intercalate_cons_cons, String.toList_append, ih]
      simp

/-- The words of texts, put together without a delimiter, are the texts without their blanks. -/
theorem toList_concat_ofTexts (texts : List String) :
    (String.intercalate "" (ofTexts texts)).toList =
      Text.dropBlanks (texts.flatMap String.toList) := by
  rw [toList_concat, ofTexts]
  induction texts with
  | nil => rfl
  | cons text texts ih =>
    have hwords : (ofText text).flatMap String.toList = Text.dropBlanks text.toList := by
      rw [ofText_eq_words, List.flatMap_map, ← Text.flatten_words]
      simp [List.flatMap]
    rw [List.flatMap_cons, List.flatMap_append, ih, hwords, List.flatMap_cons, Text.dropBlanks,
      Text.dropBlanks, Text.dropBlanks, List.filter_append]

theorem ofText_of_isWord {token : String} (h : IsWord token) : ofText token = [token] := by
  have hne : token.toList ≠ [] := by simpa using h.1
  rw [ofText_eq_words, Text.words_of_letters hne h.2, List.map_singleton, String.ofList_toList]

/-- Words that were joined with a space are cut again. -/
theorem ofText_spaced {tokens : List String} (h : ∀ token ∈ tokens, IsWord token) :
    ofText (String.intercalate " " tokens) = tokens := by
  induction tokens with
  | nil => rfl
  | cons token tokens ih =>
    obtain ⟨htoken, hrest⟩ := List.forall_mem_cons.1 h
    cases tokens with
    | nil => simpa using ofText_of_isWord htoken
    | cons next tokens =>
      have hjoined : (String.intercalate " " (token :: next :: tokens)).toList =
          token.toList ++ ' ' :: (String.intercalate " " (next :: tokens)).toList := by
        rw [String.intercalate_cons_cons]
        simp
      rw [ofText_eq_words, hjoined, Text.words_append_blank (by decide), List.map_append,
        ← ofText_eq_words, ← ofText_eq_words, ofText_of_isWord htoken, ih hrest]
      rfl

/-- Texts are cut into their maximal runs of characters that are not blank, text by text and in
order.  The tokens are words, put together they are the texts without their blanks, and texts that
come later are cut on their own.  Words that are joined with a space are cut into the same words
again; the tokens of texts are such words. -/
theorem ofTexts_maximal_runs (texts : List String) :
    (∃ pieces, List.Forall₂ AreRuns texts pieces ∧ ofTexts texts = pieces.flatten) ∧
      (∀ token ∈ ofTexts texts, IsWord token) ∧
      join (ofTexts texts) .concatenated =
        some (String.ofList (Text.dropBlanks (texts.flatMap String.toList))) ∧
      (∀ later, ofTexts (texts ++ later) = ofTexts texts ++ ofTexts later) ∧
      (∃ joined, join (ofTexts texts) .spaced = some joined ∧ ofTexts [joined] = ofTexts texts) ∧
      ∀ tokens, (∀ token ∈ tokens, IsWord token) →
        ∃ joined, join tokens .spaced = some joined ∧ ofTexts [joined] = tokens := by
  have hwords : ∀ token ∈ ofTexts texts, IsWord token := fun _ => isWord_of_mem_ofTexts
  have hspaced : ∀ tokens, (∀ token ∈ tokens, IsWord token) →
      ∃ joined, join tokens .spaced = some joined ∧ ofTexts [joined] = tokens := fun tokens h =>
    ⟨_, rfl, (List.flatMap_singleton ofText _).trans (ofText_spaced h)⟩
  refine ⟨⟨texts.map ofText, ?_, rfl⟩, hwords, ?_, fun later => List.flatMap_append,
    hspaced _ hwords, hspaced⟩
  · rw [List.forall₂_map_right_iff, List.forall₂_same]
    exact fun text _ => areRuns_ofText text
  · rw [← toList_concat_ofTexts, String.ofList_toList]
    rfl

theorem ofTexts_maximal_runs_note :
    ofTexts ["\u2003AB 1\n", "", "23\u00a0"] = ["AB", "1", "23"] ∧
      join ["AB", "1", "23"] .concatenated = some "AB123" ∧
      ∃ joined, join ["AB", "1", "23"] .spaced = some joined ∧
        ofTexts [joined] = ["AB", "1", "23"] := by
  have htokens : ofTexts ["\u2003AB 1\n", "", "23\u00a0"] = ["AB", "1", "23"] := by decide
  obtain ⟨_, hwords, hconcat, _, _, hspaced⟩ :=
    ofTexts_maximal_runs ["\u2003AB 1\n", "", "23\u00a0"]
  rw [htokens] at hwords hconcat
  exact ⟨htokens, hconcat.trans (by decide), hspaced _ hwords⟩

end Token

end Banknote
