import Banknote.Text.CategoryRuns
import Banknote.Text.LetterRanges

/-!
# General categories and character classes

`Category.of` looks a character's general category up in the table of runs.  The classes that
patterns and casing need are unions of categories and a few extra characters: digits, word
characters, letters, cased characters and the characters that casing looks through.
-/

namespace Banknote.Text

/-- The general category of a character. -/
inductive Category where
  | lu | ll | lt | lm | lo | mn | mc | me | nd | nl | no | pc | pd | ps | pe | pi | pf | po
  | sm | sc | sk | so | zs | zl | zp | cc | cf | cs | co | cn
  deriving DecidableEq, Repr, Inhabited

namespace Category

/-- Every category with its two-letter name. -/
def names : List (String × Category) :=
  [("Lu", lu), ("Ll", ll), ("Lt", lt), ("Lm", lm), ("Lo", lo), ("Mn", mn), ("Mc", mc), ("Me", me),
    ("Nd", nd), ("Nl", nl), ("No", no), ("Pc", pc), ("Pd", pd), ("Ps", ps), ("Pe", pe), ("Pi", pi),
    ("Pf", pf), ("Po", po), ("Sm", sm), ("Sc", sc), ("Sk", sk), ("So", so), ("Zs", zs), ("Zl", zl),
    ("Zp", zp), ("Cc", cc), ("Cf", cf), ("Cs", cs), ("Co", co), ("Cn", cn)]

/-- The category of a two-letter name; the unassigned one for any other name. -/
def ofName (letters : List Char) : Category :=
  (names.lookup (String.ofList letters)).getD cn

/-- Reads runs of categories: `start` is the first code point of the run being read, `letters` its
name and `length` the digits read of its length. -/
def readRuns (start : Nat) (letters : List Char) (length : Nat) :
    List Char → List (Nat × Category)
  | [] => [(start, ofName letters)]
  | c :: rest =>
    if c.isDigit then readRuns start letters (length * 10 + (c.toNat - '0'.toNat)) rest
    else if length = 0 then readRuns start (letters ++ [c]) 0 rest
    else (start, ofName letters) :: readRuns (start + length) [c] 0 rest

/-- First code point and category of every run, in ascending order. -/
def runs : Array (Nat × Category) :=
  (readRuns 0 [] 0 (categoryRuns.flatMap String.toList)).toArray

/-- Halves an index interval until it holds one index: the last run that starts at or before `n`,
given that it lies in the interval. -/
def findRun (runs : Array (Nat × Category)) (n : Nat) : Nat → Nat → Nat → Nat
  | 0, low, _ => low
  | fuel + 1, low, high =>
    if high ≤ low + 1 then low
    else
      let middle := (low + high) / 2
      match runs[middle]? with
      | some (start, _) =>
        if start ≤ n then findRun runs n fuel middle high else findRun runs n fuel low middle
      | none => low

/-- The general category of a character. -/
def of (c : Char) : Category :=
  let index := findRun runs c.toNat (runs.size.log2 + 1) 0 runs.size
  ((runs[index]?).map Prod.snd).getD cn

end Category

/-- Whether a code point lies in one of some closed ranges. -/
def inRanges (ranges : List (Nat × Nat)) (c : Char) : Bool :=
  ranges.any fun (first, last) => first ≤ c.toNat && c.toNat ≤ last

/-- The decimal digits of all scripts. -/
def isDigit (c : Char) : Bool :=
  if c.toNat < 128 then c.isDigit else Category.of c == .nd

/-- Letters, marks, digits, connecting punctuation and the two joiners. -/
def isWordChar (c : Char) : Bool :=
  if c.toNat < 128 then c.isAlphanum || c == '_'
  else match Category.of c with
    | .lu | .ll | .lt | .lm | .lo | .mn | .mc | .me | .nd | .nl | .pc => true
    | _ => c.toNat == 0x200C || c.toNat == 0x200D || inRanges letterSymbolRanges c

/-- Letters, letter-like numbers and symbols, and the marks that write vowels. -/
def isLetter (c : Char) : Bool :=
  if c.toNat < 128 then c.isAlpha
  else match Category.of c with
    | .lu | .ll | .lt | .lm | .lo | .nl => true
    | .mn | .mc | .me => inRanges letterMarkRanges c
    | _ => inRanges letterSymbolRanges c

/-- Letters and numbers of every kind. -/
def isLetterOrNumber (c : Char) : Bool :=
  isLetter c || match Category.of c with
    | .nd | .nl | .no => true
    | _ => false

/-- The characters with a lower-case shape. -/
def isLower (c : Char) : Bool :=
  Category.of c == .ll || inRanges otherLowerRanges c

/-- The characters with an upper-case shape. -/
def isUpper (c : Char) : Bool :=
  Category.of c == .lu || inRanges otherUpperRanges c

/-- The characters with a case: upper, lower or title. -/
def isCased (c : Char) : Bool :=
  isLower c || isUpper c || Category.of c == .lt

/-- The characters that casing looks through when it searches for a neighbouring letter. -/
def isCaseIgnorable (c : Char) : Bool :=
  match Category.of c with
  | .mn | .me | .cf | .lm | .sk => true
  | _ => inRanges innerPunctuationRanges c

end Banknote.Text
