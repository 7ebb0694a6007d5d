import Banknote.Currency.Basic

/-!
# Recognizing the denomination

A rule looks at the tokens of a note and at the suggestions for them.  Without joining, each of its
patterns must match some token; with joining, each must match the joined text.  The denomination of
a note is that of the first rule that matches, and rules come least value first.
-/

namespace Banknote

namespace DenominationRule

/-- A token and the suggestions for it, which there are none of for a token on the ignore list. -/
def expandToken (r : DenominationRule) (model : Fuzzy.Model) (token : String) : List String :=
  token :: if r.fuzzyIgnore.any (·.isMatch token) then [] else model.suggest token

/-- The tokens, each followed by the suggestions for it. -/
def expand (r : DenominationRule) (tokens : List String) : List String :=
  match r.fuzzy with
  | none => tokens
  | some model => tokens.flatMap (r.expandToken model)

/-- Whether the rule fits tokens that have been expanded. -/
def fits (r : DenominationRule) (tokens : List String) : Bool :=
  match Token.join tokens r.joinMethod with
  | some joined => !joined.isEmpty && r.patterns.all (·.isMatch joined)
  | none => r.patterns.all fun p => tokens.any p.isMatch

/-- Whether the rule fits the tokens. -/
def isMatch (r : DenominationRule) (tokens : List String) : Bool := r.fits (r.expand tokens)

end DenominationRule

/-- The denomination of the first rule that fits; empty if there is none. -/
def Currency.classify (c : Currency) (tokens : List String) : String :=
  ((c.denominations.find? (·.isMatch tokens)).map DenominationRule.denomination).getD ""

end Banknote
