/-!
# Blanks and words

A blank is a character with the White_Space property: twenty-five characters in ten ranges.
`words` cuts a text at its blanks, `trim` drops blanks at both ends and `dropBlanks` drops them
everywhere.
-/

namespace Banknote.Text

/-- The characters with the White_Space property. -/
def isBlank (c : Char) : Bool :=
  let n := c.toNat
  (9 ≤ n && n ≤ 13) || n == 0x20 || n == 0x85 || n == 0xA0 || n == 0x1680 ||
    (0x2000 ≤ n && n ≤ 0x200A) || n == 0x2028 || n == 0x2029 || n == 0x202F || n == 0x205F ||
    n == 0x3000

/-- Puts the word that was read, letters reversed, in front of the later words; an empty word is
dropped. -/
def closeWord (word : List Char) (later : List (List Char)) : List (List Char) :=
  if word.isEmpty then later else word.reverse :: later

/-- The words of a text when `word`, letters reversed, has been read of the first one. -/
def wordsFrom (word : List Char) : List Char → List (List Char)
  | [] => closeWord word []
  | c :: rest =>
    if isBlank c then closeWord word (wordsFrom [] rest) else wordsFrom (c :: word) rest

/-- The maximal runs of characters that are not blank, in order. -/
def words (text : List Char) : List (List Char) := wordsFrom [] text

/-- The text without its blanks. -/
def dropBlanks (text : List Char) : List Char := text.filter (!isBlank ·)

/-- The text without the blanks at its ends. -/
def trim (text : List Char) : List Char :=
  ((text.dropWhile isBlank).reverse.dropWhile isBlank).reverse

end Banknote.Text
