/-!
# Engines and directions

A pattern is matched by one of two engines, and the backtracking one can search a text from either
end.
-/

namespace Banknote.Pattern

/-- What a pattern is matched with. -/
inductive Engine where
  /-- Time linear in the text; no look-around and no back-references. -/
  | linear
  /-- Every way to match is tried, up to a limit. -/
  | backtracking
  deriving DecidableEq, Repr, Inhabited

/-- The end of the text that matches are looked for first. -/
inductive Direction where
  | leftToRight
  | rightToLeft
  deriving DecidableEq, Repr, Inhabited

end Banknote.Pattern
