import Banknote.Proofs.Fuzzy.Levenshtein
import Mathlib.Order.Bounds.Defs

/-!
# The edit distance counts edits

An `Edit` changes one character of a word, at any place, and `Edits n a b` is any sequence of `n`
edits from `a` to `b`.  Such a sequence may change the same place again and again, and the words
between may be of any length.  A `Script` in contrast goes through both words once, from front to
back.

* A script is a sequence of edits (`Script.edits`), so the distance can be reached.
* One edit changes the distance to a word by at most one (`Edit.levenshtein_le`).  This is shown
  where the edit takes place and then for every character in front of that place
  (`levenshtein_cons_le`).  Along a sequence it follows that no fewer edits do.
* `distance_isLeast`: the distance is the least number of edits.
-/

namespace Banknote.Fuzzy

/-- One insertion, deletion or substitution of a character, behind `u` and in front of `v`. -/
inductive Edit : List Char → List Char → Prop where
  | insert (u v : List Char) (y : Char) : Edit (u ++ v) (u ++ y :: v)
  | delete (u v : List Char) (x : Char) : Edit (u ++ x :: v) (u ++ v)
  | substitute (u v : List Char) (x y : Char) : Edit (u ++ x :: v) (u ++ y :: v)

/-- A sequence of edits that turns one word into another, with the number of its edits. -/
inductive Edits : Nat → List Char → List Char → Prop where
  | none (a : List Char) : Edits 0 a a
  | step {n : Nat} {a b c : List Char} (first : Edit a b) (rest : Edits n b c) : Edits (n + 1) a c

/-! ## A script is a sequence of edits -/

variable {a b : List Char}

/-- An edit can be made behind a further character. -/
theorem Edit.cons (h : Edit a b) (z : Char) : Edit (z :: a) (z :: b) := by
  cases h with
  | insert u v y => exact .insert (z :: u) v y
  | delete u v x => exact .delete (z :: u) v x
  | substitute u v x y => exact .substitute (z :: u) v x y

theorem Edits.cons {n : Nat} (h : Edits n a b) (z : Char) : Edits n (z :: a) (z :: b) := by
  induction h with
  | none a => exact .none (z :: a)
  | step first _ ih => exact .step (first.cons z) ih

/-- The edits of a script can be made one after the other. -/
theorem Script.edits {n : Nat} (h : Script n a b) : Edits n a b := by
  induction h with
  | done => exact .none []
  | keep c _ ih => exact ih.cons c
  | @substitute x y n a b _ ih => exact .step (.substitute [] a x y) (ih.cons y)
  | @insert y n a b _ ih => exact .step (.insert [] a y) (ih.cons y)
  | @delete x n a b _ ih => exact .step (.delete [] a x) ih

/-! ## No fewer edits do -/

/-- Words that are about as far from every word are so with a further character in front. -/
theorem levenshtein_cons_le {k : Nat} (h : ∀ c, levenshtein a c ≤ levenshtein b c + k) (z : Char)
    (c : List Char) : levenshtein (z :: a) c ≤ levenshtein (z :: b) c + k := by
  induction c with
  | nil =>
    have hnil := h []
    simp only [levenshtein_nil_right, List.length_cons] at hnil ⊢
    omega
  | cons y c ih =>
    have hrest := h c
    have hsame := h (y :: c)
    rw [levenshtein_cons_cons, levenshtein_cons_cons]
    omega

theorem levenshtein_append_le {k : Nat} (h : ∀ c, levenshtein a c ≤ levenshtein b c + k)
    (u c : List Char) : levenshtein (u ++ a) c ≤ levenshtein (u ++ b) c + k := by
  induction u generalizing c with
  | nil => exact h c
  | cons z u ih => exact levenshtein_cons_le ih z c

/-- An insertion in front brings a word at most one edit closer. -/
theorem levenshtein_le_cons_left (y : Char) (v c : List Char) :
    levenshtein v c ≤ levenshtein (y :: v) c + 1 := by
  induction c with
  | nil =>
    simp only [levenshtein_nil_right, List.length_cons]
    omega
  | cons z c ih =>
    have hstep := levenshtein_cons_right_le v z c
    rw [levenshtein_cons_cons]
    omega

/-- A substitution in front brings a word at most one edit closer. -/
theorem levenshtein_cons_le_cons (x y : Char) (v c : List Char) :
    levenshtein (x :: v) c ≤ levenshtein (y :: v) c + 1 := by
  induction c with
  | nil => simp
  | cons z c ih =>
    have hcost : (if x = z then 0 else 1) ≤ 1 := by split <;> omega
    rw [levenshtein_cons_cons, levenshtein_cons_cons]
    omega

/-- An edit brings a word at most one edit closer to any other word. -/
theorem Edit.levenshtein_le (h : Edit a b) (c : List Char) :
    levenshtein a c ≤ levenshtein b c + 1 := by
  cases h with
  | insert u v y => exact levenshtein_append_le (levenshtein_le_cons_left y v) u c
  | delete u v x => exact levenshtein_append_le (levenshtein_cons_left_le x v) u c
  | substitute u v x y => exact levenshtein_append_le (levenshtein_cons_le_cons x y v) u c

theorem levenshtein_self (a : List Char) : levenshtein a a = 0 := by
  have hscript : Script 0 a a := by
    induction a with
    | nil => exact .done
    | cons x a ih => exact .keep x ih
  exact Nat.le_zero.1 (levenshtein_le_of_script hscript)

/-- No sequence has fewer edits than the distance says. -/
theorem levenshtein_le_of_edits {n : Nat} (h : Edits n a b) : levenshtein a b ≤ n := by
  induction h with
  | none a => exact Nat.le_of_eq (levenshtein_self a)
  | @step n a b c first _ ih =>
    calc levenshtein a c ≤ levenshtein b c + 1 := first.levenshtein_le c
      _ ≤ n + 1 := Nat.add_le_add_right ih 1

/-- The distance is the least number of insertions, deletions and substitutions of single
characters, one after the other, that turn `a` into `b`. -/
theorem distance_isLeast (a b : List Char) : IsLeast {n | Edits n a b} (distance a b) := by
  rw [distance_eq_levenshtein]
  exact ⟨(script_levenshtein a b).edits, fun _ hn => levenshtein_le_of_edits hn⟩

/-- Characters are counted, however many bytes they take. -/
example : distance ['五', 'v', 'e'] ['f', 'i', 'v', 'e'] = 2 := by decide

end Banknote.Fuzzy
