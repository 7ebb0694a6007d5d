import Banknote.Fuzzy.Distance

/-!
# The edit distance is the Levenshtein distance

`levenshtein` is the recursion on the first characters of two words.  `distance` fills the table of
distances from the front of the words, one row for each character of the first word.  This module
proves that both give the same number, and that words a few edits apart have a long subsequence in
common.

There are three groups.

* Edit scripts.  `Script n a b` turns `a` into `b` with `n` edits, and `levenshtein` is the least
  `n` (`script_levenshtein`, `levenshtein_le_of_script`).  Scripts can be reversed, so the distance
  of two words is that of the reversed words.
* What a script leaves alone.  `Script.exists_common` gives the subsequence of both words that the
  search for garbled words relies on.
* The table.  `distancesTo r p b` lists the distances from `r` to `p` and to what `p` becomes as it
  grows by the characters of `b`.  One step of `nextRow` takes the row of `r` to the row of `c :: r`
  (`nextRow_distancesTo`), which is the invariant of the fold in `distance`.
-/

namespace Banknote.Fuzzy

/-- The least number of insertions, deletions and substitutions of single characters that lead from
one word to another, by recursion on the first characters. -/
def levenshtein : List Char → List Char → Nat
  | [], b => b.length
  | a, [] => a.length
  | x :: a, y :: b =>
    min (levenshtein a b + if x = y then 0 else 1)
      (min (levenshtein (x :: a) b + 1) (levenshtein a (y :: b) + 1))
termination_by a b => a.length + b.length

@[simp] theorem levenshtein_nil_left (b : List Char) : levenshtein [] b = b.length := by
  rw [levenshtein]

@[simp] theorem levenshtein_nil_right (a : List Char) : levenshtein a [] = a.length := by
  cases a with
  | nil => rw [levenshtein]
  | cons x a =>
    rw [levenshtein]
    exact List.cons_ne_nil x a

theorem levenshtein_cons_cons (x y : Char) (a b : List Char) :
    levenshtein (x :: a) (y :: b) =
      min (levenshtein a b + if x = y then 0 else 1)
        (min (levenshtein (x :: a) b + 1) (levenshtein a (y :: b) + 1)) := by
  rw [levenshtein]

/-! ## Edit scripts -/

/-- A way to turn one word into another, with the number of its edits. -/
inductive Script : Nat → List Char → List Char → Prop where
  | done : Script 0 [] []
  | keep (c : Char) {n a b} (rest : Script n a b) : Script n (c :: a) (c :: b)
  | substitute (x y : Char) {n a b} (rest : Script n a b) : Script (n + 1) (x :: a) (y :: b)
  | insert (y : Char) {n a b} (rest : Script n a b) : Script (n + 1) a (y :: b)
  | delete (x : Char) {n a b} (rest : Script n a b) : Script (n + 1) (x :: a) b

theorem script_nil_left (b : List Char) : Script b.length [] b := by
  induction b with
  | nil => exact .done
  | cons y b ih => exact .insert y ih

theorem script_nil_right (a : List Char) : Script a.length a [] := by
  induction a with
  | nil => exact .done
  | cons x a ih => exact .delete x ih

/-- Some script has as many edits as the distance says. -/
theorem script_levenshtein (a b : List Char) : Script (levenshtein a b) a b := by
  induction a, b using levenshtein.induct with
  | case1 b => simpa using script_nil_left b
  | case2 a _ => simpa using script_nil_right a
  | case3 x a y b ihboth ihright ihleft =>
    rw [levenshtein_cons_cons]
    rcases Nat.le_total (levenshtein a b + if x = y then 0 else 1)
        (min (levenshtein (x :: a) b + 1) (levenshtein a (y :: b) + 1)) with h | h
    · rw [Nat.min_eq_left h]
      split
      · rename_i heq
        subst heq
        exact .keep x ihboth
      · exact .substitute x y ihboth
    · rw [Nat.min_eq_right h]
      rcases Nat.le_total (levenshtein (x :: a) b + 1) (levenshtein a (y :: b) + 1) with h | h
      · rw [Nat.min_eq_left h]
        exact .insert y ihright
      · rw [Nat.min_eq_right h]
        exact .delete x ihleft

/-- One character more of the second word costs at most one edit. -/
theorem levenshtein_cons_right_le (a : List Char) (y : Char) (b : List Char) :
    levenshtein a (y :: b) ≤ levenshtein a b + 1 := by
  cases a with
  | nil => simp
  | cons x a =>
    rw [levenshtein_cons_cons]
    omega

/-- One character more of the first word costs at most one edit. -/
theorem levenshtein_cons_left_le (x : Char) (a b : List Char) :
    levenshtein (x :: a) b ≤ levenshtein a b + 1 := by
  cases b with
  | nil => simp
  | cons y b =>
    rw [levenshtein_cons_cons]
    omega

/-- No script has fewer edits than the distance says. -/
theorem levenshtein_le_of_script {n : Nat} {a b : List Char} (h : Script n a b) :
    levenshtein a b ≤ n := by
  induction h with
  | done => simp
  | keep c _ ih =>
    rw [levenshtein_cons_cons, if_pos rfl]
    omega
  | @substitute x y n a b _ ih =>
    have hcost : (if x = y then 0 else 1) ≤ 1 := by split <;> omega
    rw [levenshtein_cons_cons]
    omega
  | @insert y n a b _ ih =>
    have hstep := levenshtein_cons_right_le a y b
    omega
  | @delete x n a b _ ih =>
    have hstep := levenshtein_cons_left_le x a b
    omega

/-- Scripts for two parts of a word make a script for the whole. -/
theorem Script.append {m n : Nat} {a b a' b' : List Char} (h : Script m a b)
    (h' : Script n a' b') : Script (m + n) (a ++ a') (b ++ b') := by
  induction h with
  | done => simpa using h'
  | keep c _ ih => exact .keep c ih
  | substitute x y _ ih =>
    rw [Nat.add_right_comm]
    exact .substitute x y ih
  | insert y _ ih =>
    rw [Nat.add_right_comm]
    exact .insert y ih
  | delete x _ ih =>
    rw [Nat.add_right_comm]
    exact .delete x ih

/-- A script read from the back turns the reversed words into each other. -/
theorem Script.reverse {n : Nat} {a b : List Char} (h : Script n a b) :
    Script n a.reverse b.reverse := by
  induction h with
  | done => exact .done
  | keep c _ ih => simpa using ih.append (.keep c .done)
  | substitute x y _ ih => simpa using ih.append (.substitute x y .done)
  | insert y _ ih => simpa using ih.append (.insert y .done)
  | delete x _ ih => simpa using ih.append (.delete x .done)

theorem levenshtein_reverse_le (a b : List Char) :
    levenshtein a.reverse b.reverse ≤ levenshtein a b :=
  levenshtein_le_of_script (script_levenshtein a b).reverse

/-- Reading both words from the back changes no distance. -/
theorem levenshtein_reverse (a b : List Char) :
    levenshtein a.reverse b.reverse = levenshtein a b := by
  apply Nat.le_antisymm (levenshtein_reverse_le a b)
  simpa using levenshtein_reverse_le a.reverse b.reverse

/-! ## What a script leaves alone -/

/-- The characters that a script keeps are a subsequence of both words, and each word loses at most
one character for each edit. -/
theorem Script.exists_common {n : Nat} {a b : List Char} (h : Script n a b) :
    ∃ d : List Char, d.Sublist a ∧ d.Sublist b ∧
      a.length ≤ d.length + n ∧ b.length ≤ d.length + n := by
  induction h with
  | done => exact ⟨[], .slnil, .slnil, Nat.le_refl 0, Nat.le_refl 0⟩
  | keep c _ ih =>
    obtain ⟨d, hda, hdb, hla, hlb⟩ := ih
    refine ⟨c :: d, hda.cons_cons c, hdb.cons_cons c, ?_, ?_⟩
    · simp only [List.length_cons]; omega
    · simp only [List.length_cons]; omega
  | substitute x y _ ih =>
    obtain ⟨d, hda, hdb, hla, hlb⟩ := ih
    refine ⟨d, hda.cons x, hdb.cons y, ?_, ?_⟩
    · rw [List.length_cons]; omega
    · rw [List.length_cons]; omega
  | insert y _ ih =>
    obtain ⟨d, hda, hdb, hla, hlb⟩ := ih
    refine ⟨d, hda, hdb.cons y, by omega, ?_⟩
    rw [List.length_cons]; omega
  | delete x _ ih =>
    obtain ⟨d, hda, hdb, hla, hlb⟩ := ih
    refine ⟨d, hda.cons x, hdb, ?_, by omega⟩
    rw [List.length_cons]; omega

/-! ## The table of distances -/

/-- The distances from `r` to `p` and to what `p` becomes as it grows in front, one character after
the other. -/
def distancesTo (r p : List Char) : List Char → List Nat
  | [] => [levenshtein r p]
  | b :: bs => levenshtein r p :: distancesTo r (b :: p) bs

/-- The first row of the table counts the insertions. -/
theorem distancesTo_nil (p b : List Char) :
    distancesTo [] p b = List.range' p.length (b.length + 1) := by
  induction b generalizing p with
  | nil => simp [distancesTo, List.range'_succ]
  | cons c b ih =>
    rw [distancesTo, ih, levenshtein_nil_left, List.length_cons, List.length_cons,
      ← List.range'_succ]

theorem getLast?_distancesTo (r p b : List Char) :
    (distancesTo r p b).getLast? = some (levenshtein r (b.reverse ++ p)) := by
  induction b generalizing p with
  | nil => simp [distancesTo]
  | cons c b ih =>
    rw [distancesTo, List.getLast?_cons, ih]
    simp

/-- A row holds at least the distance to `p`. -/
theorem distancesTo_eq_cons (r p b : List Char) :
    distancesTo r p b = levenshtein r p :: (distancesTo r p b).tail := by
  cases b <;> rfl

/-- The rest of a row is computed from the row above: the three neighbours of an entry are the
distances that the recursion for this entry asks for. -/
theorem rowFrom_distancesTo (c : Char) (r p b : List Char) :
    rowFrom c b (levenshtein r p) (levenshtein (c :: r) p) (distancesTo r p b).tail =
      (distancesTo (c :: r) p b).tail := by
  induction b generalizing p with
  | nil => rfl
  | cons d b ih =>
    simp only [distancesTo, List.tail_cons]
    rw [distancesTo_eq_cons r (d :: p) b, rowFrom, ← levenshtein_cons_cons, ih (d :: p),
      ← distancesTo_eq_cons]

/-- One step of the fold takes the row of `r` to the row of `c :: r`. -/
theorem nextRow_distancesTo (b r : List Char) (c : Char) :
    nextRow b (distancesTo r [] b) c = distancesTo (c :: r) [] b := by
  rw [distancesTo_eq_cons r, distancesTo_eq_cons (c :: r), nextRow, ← rowFrom_distancesTo c r [] b]
  simp

/-- The rows of a word, from the row of what was read before. -/
theorem foldl_nextRow (a b r : List Char) :
    a.foldl (nextRow b) (distancesTo r [] b) = distancesTo (a.reverse ++ r) [] b := by
  induction a generalizing r with
  | nil => rfl
  | cons c a ih =>
    rw [List.foldl_cons, nextRow_distancesTo, ih]
    simp

/-- The last entry of the last row is the Levenshtein distance. -/
theorem distance_eq_levenshtein (a b : List Char) : distance a b = levenshtein a b := by
  have hstart : List.range (b.length + 1) = distancesTo [] [] b := by
    rw [distancesTo_nil, List.length_nil, ← List.range_eq_range']
  rw [distance, hstart, foldl_nextRow, getLast?_distancesTo]
  simpa using levenshtein_reverse a b

end Banknote.Fuzzy
