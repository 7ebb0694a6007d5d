import Banknote.KeyMap
import Banknote.Number.Binary
import Banknote.Pattern.Engine
import Banknote.Token

/-!
# The configuration of currencies

The data of a table of currencies as they are written, before anything in them is checked or
compiled.  `Config.Table` maps currency codes to what is known about each currency.
-/

namespace Banknote.Config

open Pattern (Direction)

/-- Words that garbled tokens are corrected to, and how garbled a token may be. -/
structure Fuzzy where
  /-- The words. -/
  vocabulary : List String
  /-- The greatest number of edits. -/
  depth : Nat
  deriving BEq, Repr, Inhabited

/-- How a denomination is recognized. -/
structure Denomination where
  /-- The patterns for the linear engine. -/
  patterns : List String := []
  /-- The patterns for the backtracking engine, instead of the others. -/
  dualPatterns : List String := []
  /-- How tokens are joined for the patterns. -/
  joinMethod : JoinMethod := .perToken
  /-- The correction of garbled tokens. -/
  fuzzy : Option Fuzzy := none
  /-- Patterns of tokens that are not corrected. -/
  fuzzyIgnore : List String := []
  /-- Weights of reference colours, by `r,g,b`. -/
  colorHints : KeyMap (Binary .double) := .empty
  deriving BEq, Inhabited

/-- How a serial number is found. -/
structure Directive where
  /-- The pattern for the linear engine. -/
  pattern : Option String := none
  /-- The pattern for the backtracking engine, instead of the other. -/
  dualPattern : Option String := none
  /-- Where the backtracking engine starts. -/
  direction : Direction := .leftToRight
  /-- The group that holds the serial number. -/
  captureGroup : Nat := 0
  /-- How tokens are joined for the pattern. -/
  joinMethod : JoinMethod := .perToken
  /-- Patterns of what is taken away before the search. -/
  tokensToRemove : List String := []
  /-- Names of what is done to the serial number found. -/
  resultFilters : List String := []
  /-- Names of what is done to the groups before one is picked. -/
  matchFilters : List String := []
  deriving BEq, Repr, Inhabited

/-- A named entry of a serial tree. -/
inductive Entry where
  /-- The name of another entry of the tree. -/
  | reference (name : String)
  /-- A directive of its own. -/
  | concrete (directive : Directive)
  deriving BEq, Repr, Inhabited

/-- The directives of a currency: a default one and named ones. -/
structure Serial where
  /-- The default directive. -/
  root : Directive
  /-- The named entries; every name starts with `entryStart`. -/
  entries : KeyMap Entry
  deriving BEq, Inhabited

/-- What is known about a currency; nothing, for a code that is only listed. -/
structure Currency where
  /-- The language of its notes. -/
  language : Option String := none
  /-- Patterns that must all be found on a note. -/
  textMarks : List String := []
  /-- The denominations, by their written value. -/
  denominations : KeyMap Denomination := .empty
  /-- How serial numbers are found. -/
  serial : Option Serial := none
  deriving BEq, Inhabited

/-- The currencies by code. -/
abbrev Table := KeyMap Currency

/-- How the name of an entry of a serial tree starts. -/
def entryStart : String := "serial_"

/-- Whether a name is the name of an entry of a serial tree. -/
def isEntryKey (key : String) : Bool := entryStart.toList.isPrefixOf key.toList

/-- The name under which a denomination's own entry stands. -/
def entryKey (denomination : String) : String := entryStart ++ denomination

end Banknote.Config
