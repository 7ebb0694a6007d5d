import Banknote.Text.CaseShifts
import Banknote.Text.Category

/-!
# Upper case, lower case and case folding

`lower` and `upper` are the full case mappings of texts: one letter may become several, and a
capital sigma becomes a final one at the end of a word.  `fold` is simple case folding, one
character to one, and `caseVariants` lists the characters that fold like a given one.
-/

namespace Banknote.Text

/-- The code point that a run moves `n` to, if `n` is one of its letters. -/
def CaseShift.image? (s : CaseShift) (n : Nat) : Option Nat :=
  if s.first ≤ n && n ≤ s.last && (n - s.first) % s.step == 0 then some (n + s.shift).toNat
  else none

/-- The image of a code point under a list of runs; a code point in no run stays. -/
def shifted (shifts : List CaseShift) (n : Nat) : Nat :=
  (shifts.findSome? (·.image? n)).getD n

/-- The image of a character under a case mapping given by its data. -/
def mapCase (shifts : List CaseShift) (expansions : List (Nat × List Nat)) (c : Char) : List Char :=
  match expansions.lookup c.toNat with
  | some images => images.map Char.ofNat
  | none => [Char.ofNat (shifted shifts c.toNat)]

/-- The lower-case form of one character. -/
def lowerChar (c : Char) : List Char :=
  if c.toNat < 128 then [c.toLower] else mapCase lowerShifts lowerExpansions c

/-- The upper-case form of one character. -/
def upperChar (c : Char) : List Char :=
  if c.toNat < 128 then [c.toUpper] else mapCase upperShifts upperExpansions c

/-- Whether the first character that casing does not look through is a cased one. -/
def meetsCased (text : List Char) : Bool :=
  ((text.dropWhile isCaseIgnorable).head?.map isCased).getD false

/-- Lower case of a text, given the text before it in reversed order: a capital sigma is final when
a cased character comes before it and none after it. -/
def lowerFrom (before : List Char) : List Char → List Char
  | [] => []
  | c :: rest =>
    let images :=
      if c == 'Σ' then if meetsCased before && !meetsCased rest then ['ς'] else ['σ']
      else lowerChar c
    images ++ lowerFrom (c :: before) rest

/-- The lower-case form of a text. -/
def lower (text : List Char) : List Char := lowerFrom [] text

/-- The upper-case form of a text. -/
def upper (text : List Char) : List Char := text.flatMap upperChar

/-- Simple case folding. -/
def fold (c : Char) : Char :=
  if c.toNat < 128 then c.toLower else Char.ofNat (shifted foldShifts c.toNat)

/-- The code points that a run moves to `n`. -/
def CaseShift.source? (s : CaseShift) (n : Nat) : Option Nat :=
  let source := (n - s.shift : Int).toNat
  if s.image? source == some n then some source else none

/-- The characters that fold like `c`, without `c`. -/
def caseVariants (c : Char) : List Char :=
  let folded := fold c
  (folded :: (foldShifts.filterMap (·.source? folded.toNat)).map Char.ofNat).filter (· != c)

end Banknote.Text
