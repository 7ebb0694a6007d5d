import Banknote.Json.Reader
import Banknote.Proofs.Json.Numeral

/-!
# Written values are read back

`readText_compact` and `readText_pretty` say that a reader meets, in the text of a value, exactly the
document of that value, whichever of the two ways the value was written.

Both ways are cases of `spacedText`, which leaves open what blanks stand between the parts
(`compactText_eq`, `prettyText_eq`).  `scanValue_spacedText` is the main induction.  It follows the
constructors of `Json` and counts down the steps of the scanner; no value takes more steps than its
text has characters.
-/

namespace Banknote.Json

/-! ## Strings -/

theorem hexValue?_hexPair :
    ∀ n < 0x20, hexValue? ('0' :: '0' :: hexPair n) = some n := by decide

/-- One written character is one character read. -/
theorem scanString_escape (c : Char) (done rest : List Char) :
    scanString ⟨done, none, none⟩ (escape c ++ rest) =
      scanString ⟨c :: done, none, none⟩ rest := by
  unfold escape
  split
  · subst c; rfl
  split
  · subst c; rfl
  split
  · subst c; rfl
  split
  · subst c; rfl
  split
  · subst c; rfl
  split
  · subst c; rfl
  split
  · subst c; rfl
  split
  · rename_i hlow
    have hhex := hexValue?_hexPair c.toNat hlow
    have hhigh : isHighSurrogate c.toNat = false := by
      simp only [isHighSurrogate, Bool.and_eq_false_iff, decide_eq_false_iff_not]
      omega
    have hlow' : isLowSurrogate c.toNat = false := by
      simp only [isLowSurrogate, Bool.and_eq_false_iff, decide_eq_false_iff_not]
      omega
    rw [hexPair] at hhex ⊢
    simp only [List.cons_append, List.nil_append, scanString, hhex, Partial.pushUnit, hhigh, hlow',
      Bool.false_eq_true, if_false, Char.ofNat_toNat]
  · rename_i hquote hslash _ _ _ _ _ hlow
    simp [scanString, hslash, hlow, Partial.push]

theorem scanString_flatMap (cs done rest : List Char) :
    scanString ⟨done, none, none⟩ (cs.flatMap escape ++ '"' :: rest) =
      .ok (.ok (String.ofList (done.reverse ++ cs)), rest) := by
  induction cs generalizing done with
  | nil => simp [scanString, Partial.finish]
  | cons c cs ih =>
    rw [List.flatMap_cons, List.append_assoc, scanString_escape, ih]
    simp

/-- A string is read as it is written. -/
theorem scanString_quoted (s : String) (rest : List Char) :
    scanString .start (s.toList.flatMap escape ++ '"' :: rest) = .ok (.ok s, rest) := by
  rw [Partial.start, scanString_flatMap]
  simp

/-! ## Spacing -/

/-- What stands between the parts of a written value. -/
structure Spacing where
  /-- After an opening bracket, before a closing one and between items, by nesting level. -/
  line : Nat → List Char
  /-- After a colon. -/
  gap : List Char

namespace Spacing

/-- Only blanks stand between the parts. -/
structure Blank (s : Spacing) : Prop where
  line : ∀ level, ∀ c ∈ s.line level, isSpace c = true
  gap : ∀ c ∈ s.gap, isSpace c = true

/-- Nothing between the parts. -/
def tight : Spacing := ⟨fun _ => [], []⟩

/-- One item to a line. -/
def lined : Spacing := ⟨newline, [' ']⟩

theorem blank_tight : tight.Blank := ⟨by simp [tight], by simp [tight]⟩

theorem blank_lined : lined.Blank := by
  refine ⟨fun level c hc => ?_, by simp [lined, isSpace]⟩
  simp only [lined, newline, List.mem_cons, List.mem_replicate] at hc
  rcases hc with rfl | ⟨_, rfl⟩ <;> rfl

end Spacing

mutual

/-- The text of a value at a nesting level. -/
def spacedText (s : Spacing) (level : Nat) : Json → List Char
  | .null => ['n', 'u', 'l', 'l']
  | .bool b => boolText b
  | .num n => n.text
  | .str t => quoted t
  | .arr items => '[' :: spacedItems s level true items
  | .obj members => '{' :: spacedMembers s level true members

/-- Items up to the end of their array, perhaps from the first one on. -/
def spacedItems (s : Spacing) (level : Nat) (first : Bool) : List Json → List Char
  | [] => (if first then [] else s.line level) ++ [']']
  | j :: rest =>
    (if first then [] else [',']) ++ s.line (level + 1) ++ spacedText s (level + 1) j ++
      spacedItems s level false rest

/-- Members up to the end of their object, perhaps from the first one on. -/
def spacedMembers (s : Spacing) (level : Nat) (first : Bool) :
    List (String × Json) → List Char
  | [] => (if first then [] else s.line level) ++ ['}']
  | (k, j) :: rest =>
    (if first then [] else [',']) ++ s.line (level + 1) ++ quoted k ++ ':' :: s.gap ++
      spacedText s (level + 1) j ++ spacedMembers s level false rest

end

mutual

/-- A value is written without blanks by leaving all of them out. -/
theorem compactText_eq (level : Nat) : ∀ j : Json, compactText j = spacedText .tight level j
  | .null | .bool _ | .num _ | .str _ => by simp [compactText, spacedText]
  | .arr items => by
    rw [compactText, spacedText, List.cons_append, compactItems_eq level items]
  | .obj members => by
    rw [compactText, spacedText, List.cons_append, compactMembers_eq level members]

theorem compactItems_eq (level : Nat) :
    ∀ items : List Json, compactItems items ++ [']'] = spacedItems .tight level true items
  | [] => rfl
  | [j] => by
    rw [compactItems, compactText_eq (level + 1) j]
    simp [spacedItems, Spacing.tight]
  | j :: j' :: rest => by
    have hrest := compactItems_eq level (j' :: rest)
    rw [compactItems, compactText_eq (level + 1) j, List.append_assoc, List.cons_append, hrest]
    · simp [spacedItems, Spacing.tight]
    · simp

theorem compactMembers_eq (level : Nat) :
    ∀ members : List (String × Json),
      compactMembers members ++ ['}'] = spacedMembers .tight level true members
  | [] => rfl
  | [(k, j)] => by
    rw [compactMembers, compactText_eq (level + 1) j]
    simp [spacedMembers, Spacing.tight]
  | (k, j) :: (k', j') :: rest => by
    have hrest := compactMembers_eq level ((k', j') :: rest)
    rw [compactMembers, compactText_eq (level + 1) j, List.append_assoc, List.cons_append, hrest]
    · simp [spacedMembers, Spacing.tight]
    · simp

end

mutual

/-- A value is written one item to a line by breaking the line at every blank place. -/
theorem prettyText_eq (level : Nat) : ∀ j : Json, prettyText level j = spacedText .lined level j
  | .null | .bool _ | .num _ | .str _ => by simp [prettyText, spacedText]
  | .arr items => by
    have hitems := prettyItems_eq level items
    rw [spacedText]
    cases items with
    | nil => simp [prettyText, spacedItems]
    | cons j rest => simpa [prettyText] using hitems
  | .obj members => by
    have hmembers := prettyMembers_eq level members
    rw [spacedText]
    cases members with
    | nil => simp [prettyText, spacedMembers]
    | cons m rest => simpa [prettyText] using hmembers

theorem prettyItems_eq (level : Nat) :
    ∀ items : List Json, items ≠ [] →
      newline (level + 1) ++ prettyItems (level + 1) items ++ newline level ++ [']'] =
        spacedItems .lined level true items
  | [], h => absurd rfl h
  | [j], _ => by
    rw [prettyItems, prettyText_eq (level + 1) j]
    simp [spacedItems, Spacing.lined]
  | j :: j' :: rest, _ => by
    have hrest := prettyItems_eq level (j' :: rest) (by simp)
    rw [prettyItems, prettyText_eq (level + 1) j]
    · simpa [spacedItems, Spacing.lined] using hrest
    · simp

theorem prettyMembers_eq (level : Nat) :
    ∀ members : List (String × Json), members ≠ [] →
      newline (level + 1) ++ prettyMembers (level + 1) members ++ newline level ++ ['}'] =
        spacedMembers .lined level true members
  | [], h => absurd rfl h
  | [(k, j)], _ => by
    rw [prettyMembers, prettyText_eq (level + 1) j]
    simp [spacedMembers, Spacing.lined]
  | (k, j) :: (k', j') :: rest, _ => by
    have hrest := prettyMembers_eq level ((k', j') :: rest) (by simp)
    rw [prettyMembers, prettyText_eq (level + 1) j]
    · simpa [spacedMembers, Spacing.lined] using hrest
    · simp

end

/-! ## Scanning -/

mutual

/-- All numerals of a value keep the grammar. -/
def WellFormed : Json → Prop
  | .null | .bool _ | .str _ => True
  | .num n => n.WellFormed
  | .arr items => WellFormedItems items
  | .obj members => WellFormedMembers members

/-- All numerals of some items keep the grammar. -/
def WellFormedItems : List Json → Prop
  | [] => True
  | j :: rest => WellFormed j ∧ WellFormedItems rest

/-- All numerals of some members keep the grammar. -/
def WellFormedMembers : List (String × Json) → Prop
  | [] => True
  | (_, j) :: rest => WellFormed j ∧ WellFormedMembers rest

end

theorem skipSpace_append {blank rest : List Char} (h : ∀ c ∈ blank, isSpace c = true) :
    skipSpace (blank ++ rest) = skipSpace rest :=
  List.dropWhile_append_of_pos h

theorem skipSpace_cons {c : Char} {rest : List Char} (h : isSpace c = false) :
    skipSpace (c :: rest) = c :: rest := by
  simp [skipSpace, h]

/-- A numeral starts with a minus sign or a digit. -/
theorem Numeral.WellFormed.exists_cons {n : Numeral} (h : n.WellFormed) :
    ∃ c rest, n.text = c :: rest ∧ (c = '-' ∨ c.isDigit = true) := by
  obtain ⟨c, tail, hcons, hc⟩ := h.whole.exists_cons
  rw [text_eq, hcons]
  cases n.negative with
  | true => exact ⟨'-', _, rfl, .inl rfl⟩
  | false => exact ⟨c, _, rfl, .inr hc⟩

/-- A written value starts with neither a blank nor the end of an array. -/
theorem spacedText_cons (s : Spacing) (level : Nat) {j : Json} (h : j.WellFormed) :
    ∃ c rest, spacedText s level j = c :: rest ∧ isSpace c = false ∧ c ≠ ']' := by
  cases j with
  | null => exact ⟨'n', _, by rw [spacedText], by decide, by decide⟩
  | bool b => cases b <;> exact ⟨_, _, by rw [spacedText, boolText]; rfl, by decide, by decide⟩
  | num n =>
    obtain ⟨c, rest, hcons, hc⟩ := Numeral.WellFormed.exists_cons h
    refine ⟨c, rest, by rw [spacedText, hcons], ?_, ?_⟩
    · rcases hc with rfl | hc
      · rfl
      · have hblank : c ≠ ' ' ∧ c ≠ '\n' ∧ c ≠ '\t' ∧ c ≠ '\r' :=
          ⟨ne_of_isDigit hc (by decide), ne_of_isDigit hc (by decide),
            ne_of_isDigit hc (by decide), ne_of_isDigit hc (by decide)⟩
        simp [isSpace, hblank]
    · rcases hc with rfl | hc
      · decide
      · exact ne_of_isDigit hc (by decide)
  | str t => exact ⟨'"', _, by rw [spacedText]; rfl, by decide, by decide⟩
  | arr items => exact ⟨'[', _, by rw [spacedText], by decide, by decide⟩
  | obj members => exact ⟨'{', _, by rw [spacedText], by decide, by decide⟩

/-- A scanner looks through blanks in front of a value. -/
theorem scanValue_append {blank : List Char} (h : ∀ c ∈ blank, isSpace c = true) (fuel : Nat)
    (text : List Char) : scanValue fuel (blank ++ text) = scanValue fuel text := by
  cases fuel with
  | zero => rw [scanValue, scanValue]
  | succ fuel => rw [scanValue, scanValue, skipSpace_append h]

theorem scanValue_numeral {fuel : Nat} {c : Char} {text rest : List Char} {n : Numeral}
    (hc : c = '-' ∨ c.isDigit = true) (h : scanNumeral (c :: text) = .ok (n, rest)) :
    scanValue (fuel + 1) (c :: text) = ⟨.num n, some rest⟩ := by
  have hne : ∀ d : Char, d ≠ '-' → d.isDigit = false → c ≠ d := by
    rintro d hminus hd rfl
    rcases hc with hc | hc
    · exact hminus hc
    · rw [hc] at hd
      cases hd
  have hblank : isSpace c = false := by
    simp [isSpace, hne]
  -- the rows of the match before the last one are ruled out by their first characters
  have hn := hne 'n' (by decide) (by decide)
  have ht := hne 't' (by decide) (by decide)
  have hf := hne 'f' (by decide) (by decide)
  have hquote := hne '"' (by decide) (by decide)
  have hlist := hne '[' (by decide) (by decide)
  have hobject := hne '{' (by decide) (by decide)
  rw [scanValue, skipSpace_cons hblank]
  simp [hc, h]

/-- One item: what is left after it is scanned for the further items. -/
theorem scanItems_step {fuel : Nat} {first : Bool} {text next rest : List Char} {c : Char}
    {tail : List Char} {doc : Doc} (hskip : skipSpace text = c :: tail) (hc : c ≠ ']')
    (hnext : nextItem first (c :: tail) = .ok next)
    (hvalue : scanValue fuel next = ⟨doc, some rest⟩) :
    scanItems (fuel + 1) first text =
      (doc :: (scanItems fuel false rest).1, (scanItems fuel false rest).2) := by
  rw [scanItems, hskip]
  simp [hc, hnext, hvalue]

/-- One member: what is left after it is scanned for the further members. -/
theorem scanMembers_step {fuel : Nat} {first : Bool} {text next rest : List Char} {c : Char}
    {tail afterKey : List Char} {key : Except TextFault String} {afterColon : List Char} {doc : Doc}
    (hskip : skipSpace text = c :: tail) (hc : c ≠ '}')
    (hnext : nextMember first (c :: tail) = .ok ('"' :: next))
    (hkey : scanString .start next = .ok (key, afterKey))
    (hcolon : skipSpace afterKey = ':' :: afterColon)
    (hvalue : scanValue fuel afterColon = ⟨doc, some rest⟩) :
    scanMembers (fuel + 1) first text =
      ((key, doc) :: (scanMembers fuel false rest).1, (scanMembers fuel false rest).2) := by
  rw [scanMembers, hskip]
  simp [hc, hnext, hkey, hcolon, hvalue]

/-- The scanner finds the next item past the comma and the blanks. -/
theorem exists_nextItem {s : Spacing} (hs : s.Blank) (level : Nat) (first : Bool) {j : Json}
    (h : j.WellFormed) (rest : List Char) :
    ∃ c tail,
      skipSpace ((if first then [] else [',']) ++ s.line level ++
        (spacedText s level j ++ rest)) = c :: tail ∧
      c ≠ ']' ∧ nextItem first (c :: tail) = .ok (spacedText s level j ++ rest) := by
  obtain ⟨c, tail, hcons, hblank, hc⟩ := spacedText_cons s level h
  have hskip : skipSpace (s.line level ++ (spacedText s level j ++ rest)) = c :: (tail ++ rest) := by
    rw [skipSpace_append (hs.line level), hcons, List.cons_append, skipSpace_cons hblank]
  cases first with
  | true =>
    refine ⟨c, tail ++ rest, by simpa using hskip, hc, ?_⟩
    rw [hcons]
    rfl
  | false =>
    refine ⟨',', _, skipSpace_cons (by decide), by decide, ?_⟩
    rw [hcons, List.cons_append] at hskip ⊢
    simp [nextItem, hskip, hc]

/-- The scanner finds the next key past the comma and the blanks. -/
theorem exists_nextMember {s : Spacing} (hs : s.Blank) (level : Nat) (first : Bool) (k : String)
    (rest : List Char) :
    ∃ c tail,
      skipSpace ((if first then [] else [',']) ++ s.line level ++ (quoted k ++ rest)) = c :: tail ∧
      c ≠ '}' ∧
      nextMember first (c :: tail) = .ok ('"' :: (k.toList.flatMap escape ++ '"' :: rest)) := by
  have hquoted : quoted k ++ rest = '"' :: (k.toList.flatMap escape ++ '"' :: rest) := by
    simp [quoted]
  have hskip : skipSpace (s.line level ++ (quoted k ++ rest)) =
      '"' :: (k.toList.flatMap escape ++ '"' :: rest) := by
    rw [skipSpace_append (hs.line level), hquoted, skipSpace_cons (by decide)]
  cases first with
  | true => exact ⟨'"', _, by simpa using hskip, by decide, rfl⟩
  | false =>
    refine ⟨',', _, skipSpace_cons (by decide), by decide, ?_⟩
    simp [nextMember, hskip]

theorem spacedItems_length (s : Spacing) (level : Nat) (first : Bool) (items : List Json) :
    1 ≤ (spacedItems s level first items).length := by
  cases items with
  | nil => simp [spacedItems]
  | cons j rest =>
    have hrest := spacedItems_length s level false rest
    simp only [spacedItems, List.length_append]
    omega

theorem spacedMembers_length (s : Spacing) (level : Nat) (first : Bool)
    (members : List (String × Json)) : 1 ≤ (spacedMembers s level first members).length := by
  cases members with
  | nil => simp [spacedMembers]
  | cons m rest =>
    have hrest := spacedMembers_length s level false rest
    simp only [spacedMembers, List.length_append]
    omega

theorem spacedText_length (s : Spacing) (level : Nat) {j : Json} (h : j.WellFormed) :
    1 ≤ (spacedText s level j).length := by
  obtain ⟨c, rest, hcons, _⟩ := spacedText_cons s level h
  simp [hcons]

theorem stops_append {blank rest : List Char} (h : ∀ c ∈ blank, isSpace c = true)
    (hrest : Stops rest) : Stops (blank ++ rest) := by
  cases blank with
  | nil => exact hrest
  | cons c blank =>
    have hc : isSpace c = true := h c List.mem_cons_self
    simp only [isSpace, Bool.or_eq_true, beq_iff_eq] at hc
    rcases hc with ((rfl | rfl) | rfl) | rfl
    all_goals exact stops_cons (by decide) (by decide) (by decide) (by decide)

/-- What stands after an item continues no numeral. -/
theorem stops_spacedItems {s : Spacing} (hs : s.Blank) (level : Nat) (items : List Json)
    (rest : List Char) : Stops (spacedItems s level false items ++ rest) := by
  cases items with
  | nil =>
    rw [spacedItems, List.append_assoc]
    exact stops_append (hs.line level) (stops_cons rfl (by decide) (by decide) (by decide))
  | cons j items => exact stops_cons rfl (by decide) (by decide) (by decide)

/-- What stands after a member continues no numeral. -/
theorem stops_spacedMembers {s : Spacing} (hs : s.Blank) (level : Nat)
    (members : List (String × Json)) (rest : List Char) :
    Stops (spacedMembers s level false members ++ rest) := by
  cases members with
  | nil =>
    rw [spacedMembers, List.append_assoc]
    exact stops_append (hs.line level) (stops_cons rfl (by decide) (by decide) (by decide))
  | cons m members => exact stops_cons rfl (by decide) (by decide) (by decide)

mutual

/-- A written value is scanned as its document, given as many steps as it has characters. -/
theorem scanValue_spacedText {s : Spacing} (hs : s.Blank) (level : Nat) :
    ∀ (j : Json) (fuel : Nat) (rest : List Char), j.WellFormed →
      (spacedText s level j).length ≤ fuel → Stops rest →
      scanValue fuel (spacedText s level j ++ rest) = ⟨toDoc j, some rest⟩
  | j, 0, rest, h, hfuel, _ => by
    have hlength := spacedText_length s level h
    omega
  | .null, fuel + 1, rest, _, _, _ => rfl
  | .bool b, fuel + 1, rest, _, _, _ => by cases b <;> rfl
  | .num n, fuel + 1, rest, h, _, hrest => by
    obtain ⟨c, tail, hcons, hc⟩ := Numeral.WellFormed.exists_cons h
    have hscan := scanNumeral_text h hrest
    rw [spacedText, toDoc]
    rw [hcons, List.cons_append] at hscan ⊢
    exact scanValue_numeral hc hscan
  | .str t, fuel + 1, rest, _, _, _ => by
    have hscan := scanString_quoted t rest
    rw [spacedText, quoted, toDoc, List.cons_append, List.cons_append, List.append_assoc, scanValue,
      skipSpace_cons (by decide)]
    simp [hscan]
  | .arr items, fuel + 1, rest, h, hfuel, _ => by
    rw [spacedText, List.length_cons] at hfuel
    have hitems := scanItems_spacedItems hs level items true fuel rest h (by omega)
    rw [spacedText, toDoc, List.cons_append, scanValue, skipSpace_cons (by decide)]
    simp [hitems]
  | .obj members, fuel + 1, rest, h, hfuel, _ => by
    rw [spacedText, List.length_cons] at hfuel
    have hmembers := scanMembers_spacedMembers hs level members true fuel rest h (by omega)
    rw [spacedText, toDoc, List.cons_append, scanValue, skipSpace_cons (by decide)]
    simp [hmembers]

/-- Written items are scanned as their documents. -/
theorem scanItems_spacedItems {s : Spacing} (hs : s.Blank) (level : Nat) :
    ∀ (items : List Json) (first : Bool) (fuel : Nat) (rest : List Char), WellFormedItems items →
      (spacedItems s level first items).length ≤ fuel →
      scanItems fuel first (spacedItems s level first items ++ rest) =
        (toDocs items, none, some rest)
  | items, first, 0, rest, _, hfuel => by
    have hlength := spacedItems_length s level first items
    omega
  | [], first, fuel + 1, rest, _, _ => by
    have hskip : skipSpace (spacedItems s level first [] ++ rest) = ']' :: rest := by
      cases first with
      | true => exact skipSpace_cons (by decide)
      | false =>
        rw [spacedItems, List.append_assoc]
        exact (skipSpace_append (hs.line level)).trans (skipSpace_cons (by decide))
    rw [scanItems, hskip, toDocs]
    rfl
  | j :: items, first, fuel + 1, rest, h, hfuel => by
    have hlength := spacedItems_length s level false items
    have hlength' := spacedText_length s (level + 1) h.1
    simp only [spacedItems, List.length_append] at hfuel
    obtain ⟨c, tail, hskip, hc, hnext⟩ :=
      exists_nextItem hs (level + 1) first h.1 (spacedItems s level false items ++ rest)
    have hvalue := scanValue_spacedText hs (level + 1) j fuel
      (spacedItems s level false items ++ rest) h.1 (by omega) (stops_spacedItems hs level items rest)
    have hitems := scanItems_spacedItems hs level items false fuel rest h.2 (by omega)
    rw [spacedItems, List.append_assoc, List.append_assoc,
      scanItems_step hskip hc hnext hvalue, hitems, toDocs]

/-- Written members are scanned as their documents. -/
theorem scanMembers_spacedMembers {s : Spacing} (hs : s.Blank) (level : Nat) :
    ∀ (members : List (String × Json)) (first : Bool) (fuel : Nat) (rest : List Char),
      WellFormedMembers members → (spacedMembers s level first members).length ≤ fuel →
      scanMembers fuel first (spacedMembers s level first members ++ rest) =
        (toDocMembers members, none, some rest)
  | members, first, 0, rest, _, hfuel => by
    have hlength := spacedMembers_length s level first members
    omega
  | [], first, fuel + 1, rest, _, _ => by
    have hskip : skipSpace (spacedMembers s level first [] ++ rest) = '}' :: rest := by
      cases first with
      | true => exact skipSpace_cons (by decide)
      | false =>
        rw [spacedMembers, List.append_assoc]
        exact (skipSpace_append (hs.line level)).trans (skipSpace_cons (by decide))
    rw [scanMembers, hskip, toDocMembers]
    rfl
  | (k, j) :: members, first, fuel + 1, rest, h, hfuel => by
    have hlength := spacedMembers_length s level false members
    have hlength' := spacedText_length s (level + 1) h.1
    simp only [spacedMembers, List.length_append, List.length_cons] at hfuel
    obtain ⟨c, tail, hskip, hc, hnext⟩ := exists_nextMember hs (level + 1) first k
      (':' :: (s.gap ++ (spacedText s (level + 1) j ++ (spacedMembers s level false members ++ rest))))
    have hkey := scanString_quoted k
      (':' :: (s.gap ++ (spacedText s (level + 1) j ++ (spacedMembers s level false members ++ rest))))
    have hvalue := scanValue_spacedText hs (level + 1) j fuel
      (spacedMembers s level false members ++ rest) h.1 (by omega)
      (stops_spacedMembers hs level members rest)
    rw [← scanValue_append hs.gap] at hvalue
    have hmembers := scanMembers_spacedMembers hs level members false fuel rest h.2 (by omega)
    have hshape : spacedMembers s level first ((k, j) :: members) ++ rest =
        (if first then [] else [',']) ++ s.line (level + 1) ++ (quoted k ++
          (':' :: (s.gap ++ (spacedText s (level + 1) j ++
            (spacedMembers s level false members ++ rest))))) := by
      simp [spacedMembers]
    rw [hshape, scanMembers_step hskip hc hnext hkey (skipSpace_cons (by decide)) hvalue, hmembers,
      toDocMembers]

end

/-! ## Whole texts -/

/-- A reader meets the document of a value in its text. -/
theorem scan_spacedText {s : Spacing} (hs : s.Blank) {j : Json} (h : j.WellFormed) :
    scan (spacedText s 0 j) = ⟨toDoc j, some []⟩ := by
  have hvalue := scanValue_spacedText hs 0 j (2 * (spacedText s 0 j).length + 2) [] h (by omega)
    stops_nil
  rwa [List.append_nil] at hvalue

theorem readText_spacedText {α : Type} {s : Spacing} (hs : s.Blank) (reader : Doc → Except Fault α)
    {j : Json} (h : j.WellFormed) : readText reader (spacedText s 0 j) = reader (toDoc j) := by
  rw [readText, scan_spacedText hs h]
  cases reader (toDoc j) <;> rfl

theorem readText_compact {α : Type} (reader : Doc → Except Fault α) {j : Json}
    (h : j.WellFormed) : readText reader j.compact.toList = reader (toDoc j) := by
  rw [compact, String.toList_ofList, compactText_eq 0, readText_spacedText Spacing.blank_tight _ h]

theorem readText_pretty {α : Type} (reader : Doc → Except Fault α) {j : Json}
    (h : j.WellFormed) : readText reader j.pretty.toList = reader (toDoc j) := by
  rw [pretty, String.toList_ofList, prettyText_eq, readText_spacedText Spacing.blank_lined _ h]

theorem wellFormedMembers_iff {members : List (String × Json)} :
    WellFormedMembers members ↔ ∀ m ∈ members, m.2.WellFormed := by
  induction members with
  | nil => simp [WellFormedMembers]
  | cons m rest ih =>
    obtain ⟨k, j⟩ := m
    rw [WellFormedMembers, ih, List.forall_mem_cons]

theorem wellFormedItems_iff {items : List Json} :
    WellFormedItems items ↔ ∀ j ∈ items, j.WellFormed := by
  induction items with
  | nil => simp [WellFormedItems]
  | cons j rest ih => rw [WellFormedItems, ih, List.forall_mem_cons]

theorem wellFormed_str (s : String) : (Json.str s).WellFormed := by
  rw [WellFormed]
  trivial

theorem wellFormed_strings (items : List String) : (Json.strings items).WellFormed := by
  rw [Json.strings, WellFormed, wellFormedItems_iff]
  intro j hj
  obtain ⟨s, _, rfl⟩ := List.mem_map.1 hj
  exact wellFormed_str s

theorem wellFormed_nat (n : Nat) : (Json.nat n).WellFormed := wellFormed_ofNat n

theorem wellFormed_binary {f : BinaryFormat} (x : Binary f) : (Json.binary x).WellFormed := by
  rw [Json.binary]
  split
  · trivial
  · exact wellFormed_ofBinary x

end Banknote.Json
