import Banknote.Text.Blank
import Banknote.Text.Case

/-!
# Sets of characters

What a pattern can ask of one character.  A `CharSet` is built from ranges of code points and from
named classes by union, intersection and complement; `caseless` adds everything that folds like a
member.
-/

namespace Banknote.Pattern

open Text (Category)

/-- A class of characters that has a name. -/
inductive CharClass where
  /-- Decimal digits. -/
  | digit
  /-- White space. -/
  | blank
  /-- Characters of words. -/
  | wordChar
  /-- Letters, with the marks that write vowels. -/
  | letter
  /-- Characters with a lower-case shape. -/
  | lowercase
  /-- Characters with an upper-case shape. -/
  | uppercase
  /-- The characters of some general categories. -/
  | categories (categories : List Category)
  deriving DecidableEq, Repr, Inhabited

/-- Whether a character belongs to a class. -/
def CharClass.contains : CharClass → Char → Bool
  | digit, c => Text.isDigit c
  | blank, c => Text.isBlank c
  | wordChar, c => Text.isWordChar c
  | letter, c => Text.isLetter c
  | lowercase, c => Text.isLower c
  | uppercase, c => Text.isUpper c
  | categories cs, c => cs.contains (Category.of c)

/-- A set of characters. -/
inductive CharSet where
  /-- The code points in some closed ranges. -/
  | ranges (ranges : List (Nat × Nat))
  /-- The characters of a class. -/
  | named (cls : CharClass)
  /-- The characters in one of two sets. -/
  | union (a b : CharSet)
  /-- The characters in both of two sets. -/
  | inter (a b : CharSet)
  /-- The characters that are not in a set. -/
  | compl (a : CharSet)
  /-- The characters that fold like one in a set. -/
  | caseless (a : CharSet)
  deriving DecidableEq, Repr

namespace CharSet

/-- Whether a character belongs to a set. -/
def contains : CharSet → Char → Bool
  | ranges rs, c => Text.inRanges rs c
  | named cls, c => cls.contains c
  | union a b, c => a.contains c || b.contains c
  | inter a b, c => a.contains c && b.contains c
  | compl a, c => !a.contains c
  | caseless a, c => a.contains c || (Text.caseVariants c).any a.contains

/-- The set without members. -/
def empty : CharSet := ranges []

instance : Inhabited CharSet := ⟨empty⟩

/-- The set of all characters. -/
def any : CharSet := compl empty

/-- The set of one character. -/
def single (c : Char) : CharSet := ranges [(c.toNat, c.toNat)]

/-- The set of the characters that fold like one character. -/
def folded (c : Char) : CharSet :=
  ranges ((c :: Text.caseVariants c).map fun v => (v.toNat, v.toNat))

/-- The characters from one code point to another. -/
def range (first last : Nat) : CharSet := ranges [(first, last)]

/-- Everything but a line feed. -/
def notLineFeed : CharSet := compl (single '\n')

/-- Everything but a line feed and a carriage return. -/
def notLineBreak : CharSet := compl (ranges [(0x0A, 0x0A), (0x0D, 0x0D)])

/-- The union; ranges are put together in one list. -/
def join : CharSet → CharSet → CharSet
  | ranges a, ranges b => ranges (a ++ b)
  | a, b => union a b

/-- The members of `a` that are not in `b`. -/
def diff (a b : CharSet) : CharSet := inter a (compl b)

/-- The members of just one of two sets. -/
def symmDiff (a b : CharSet) : CharSet := union (diff a b) (diff b a)

/-- The set or its complement. -/
def negated (negative : Bool) (a : CharSet) : CharSet := if negative then compl a else a

/-- The set, or what folds like a member of it. -/
def folding (caseless : Bool) (a : CharSet) : CharSet := if caseless then .caseless a else a

end CharSet

end Banknote.Pattern
