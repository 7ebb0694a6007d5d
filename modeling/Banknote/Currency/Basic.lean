import Banknote.Config.Basic
import Banknote.Filter
import Banknote.Fuzzy.Model
import Banknote.Pattern.Matcher

/-!
# Currencies

What is known about currencies, ready to be used: patterns are compiled, vocabularies are indexed
and names are resolved.  A `CurrencyTable` holds the currencies by code, together with the
configuration that it was compiled from.
-/

namespace Banknote

open Pattern (Matcher)

/-- A reference colour of a denomination. -/
structure ColorHint where
  /-- The red channel. -/
  red : UInt8
  /-- The green channel. -/
  green : UInt8
  /-- The blue channel. -/
  blue : UInt8
  /-- How much the colour counts. -/
  weight : Binary .double
  deriving Repr

/-- How a denomination is recognized: all patterns must match. -/
structure DenominationRule where
  /-- The denomination as it is written. -/
  denomination : String
  /-- Its value. -/
  value : Nat
  /-- The patterns. -/
  patterns : List Matcher
  /-- How tokens are joined for the patterns. -/
  joinMethod : JoinMethod
  /-- The correction of garbled tokens. -/
  fuzzy : Option Fuzzy.Model
  /-- Patterns of tokens that are not corrected. -/
  fuzzyIgnore : List Matcher
  /-- The reference colours. -/
  colorHints : List ColorHint

/-- How a serial number is found. -/
structure SerialPlan where
  /-- The name that messages use. -/
  name : String
  /-- The pattern. -/
  matcher : Matcher
  /-- The group that holds the serial number. -/
  captureGroup : Nat
  /-- How tokens are joined for the pattern. -/
  joinMethod : JoinMethod
  /-- Patterns of what is taken away before the search. -/
  tokensToRemove : List Matcher
  /-- What is done to the serial number found. -/
  resultFilters : List ResultFilter
  /-- What is done to the groups before one is picked. -/
  matchFilters : List MatchFilter
  deriving Inhabited

/-- A named entry of a serial tree. -/
inductive SerialEntry where
  /-- A plan of its own. -/
  | concrete (plan : SerialPlan)
  /-- The name of another entry of the tree. -/
  | reference (name : String)

/-- How the serial numbers of a currency are found. -/
structure SerialTree where
  /-- The plan by default. -/
  root : SerialPlan
  /-- The named entries. -/
  entries : KeyMap SerialEntry

/-- What is known about one currency. -/
structure Currency where
  /-- The code. -/
  code : String
  /-- The language of its notes. -/
  language : Option String
  /-- Patterns that must all be found on a note. -/
  textMarks : List Matcher
  /-- The denominations, least value first. -/
  denominations : List DenominationRule
  /-- How its serial numbers are found. -/
  serial : Option SerialTree

namespace Currency

/-- Whether more is known than the code. -/
def isDefined (c : Currency) : Bool :=
  c.language.isSome || !c.textMarks.isEmpty || !c.denominations.isEmpty || c.serial.isSome

/-- The rule of a denomination. -/
def rule? (c : Currency) (denomination : String) : Option DenominationRule :=
  c.denominations.find? (·.denomination == denomination)

end Currency

/-- The currencies by code. -/
structure CurrencyTable where
  /-- What is known about each code. -/
  currencies : KeyMap Currency
  /-- The configuration that the table was compiled from. -/
  source : Config.Table

namespace CurrencyTable

/-- The table without codes. -/
def empty : CurrencyTable := ⟨.empty, .empty⟩

instance : Inhabited CurrencyTable := ⟨empty⟩

/-- What is known about a code. -/
def get? (t : CurrencyTable) (code : String) : Option Currency := t.currencies.get? code

/-- The codes, in order. -/
def codes (t : CurrencyTable) : List String := t.currencies.keys

/-- The codes about which more is known, in order. -/
def definedCodes (t : CurrencyTable) : List String :=
  (t.currencies.values.filter Currency.isDefined).map Currency.code

/-- The number of codes. -/
def size (t : CurrencyTable) : Nat := t.currencies.size

end CurrencyTable

end Banknote
