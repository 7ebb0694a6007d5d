import Banknote.Text.Blank

/-!
# Tokens

A token is a word of the text on a banknote.  `Token.ofTexts` cuts raw texts into tokens; a
`JoinMethod` says how tokens are put together again before a pattern searches them, and `Token.join`
does it.
-/

namespace Banknote

/-- How tokens are put together before a pattern searches them. -/
inductive JoinMethod where
  /-- Not at all: a pattern searches each token on its own. -/
  | perToken
  /-- With one space between two tokens. -/
  | spaced
  /-- With nothing between two tokens. -/
  | concatenated
  deriving DecidableEq, Repr, Inhabited

/-- What stands between two joined tokens. -/
def JoinMethod.delimiter? : JoinMethod → Option String
  | perToken => none
  | spaced => some " "
  | concatenated => some ""

namespace Token

/-- The tokens of one text: its words, without blanks around them and without empty ones. -/
def ofText (text : String) : List String :=
  (((Text.words text.toList).map Text.trim).filter (!·.isEmpty)).map String.ofList

/-- The tokens of several texts, in order. -/
def ofTexts (texts : List String) : List String := texts.flatMap ofText

/-- The joined tokens, if the method joins at all. -/
def join (tokens : List String) (method : JoinMethod) : Option String :=
  method.delimiter?.map fun delimiter => String.intercalate delimiter tokens

end Token

end Banknote
