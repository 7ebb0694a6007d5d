import Banknote.Config.Reader
import Banknote.Currency.Basic
import Banknote.Failure

/-!
# Compiling configurations

From a configuration to a table of currencies.  Everything is checked on the way, and the first
fault is the answer.  Codes are taken in order; of a code the text marks, the denominations in the
order of their keys, the default directive and the entries in the order of their keys.
-/

namespace Banknote

open Pattern (Matcher)

/-- Compiles a list with the given compiler, up to the first failure. -/
def compileAll {α β : Type} (compile : α → Except Failure β) : List α → Except Failure (List β)
  | [] => .ok []
  | a :: rest => do
    let b ← compile a
    let bs ← compileAll compile rest
    return b :: bs

/-- The answer for a pattern that may not have compiled. -/
def orInvalid (place : Place) (source : String) : Option Matcher → Except Failure Matcher
  | some m => .ok m
  | none => .error (.invalidPattern place source)

/-- Compiles a pattern for the linear engine. -/
def compileLinear (place : Place) (source : String) : Except Failure Matcher :=
  orInvalid place source (Matcher.linear? source)

/-- Compiles a pattern for the backtracking engine. -/
def compileBacktracking (place : Place) (direction : Pattern.Direction) (source : String) :
    Except Failure Matcher :=
  orInvalid place source (Matcher.backtracking? source direction)

/-- Fails with a fault in a configuration. -/
def failConfig {α : Type} (fault : ConfigFault) : Except Failure α := .error (.invalidConfig fault)

/-- The value of a numeral below a limit: digits, with a plus sign or without. -/
def naturalBelow? (limit : Nat) (text : List Char) : Option Nat :=
  let digits := match text with
    | '+' :: rest => rest
    | _ => text
  let n := digits.foldl (fun n c => n * 10 + (c.toNat - '0'.toNat)) 0
  if !digits.isEmpty && digits.all Char.isDigit && n < limit then some n else none

/-- The parts of a text between its commas. -/
def commaParts : List Char → List (List Char)
  | [] => [[]]
  | c :: rest =>
    if c = ',' then [] :: commaParts rest
    else match commaParts rest with
      | [] => [[c]]
      | part :: parts => (c :: part) :: parts

/-- The channel of a colour. -/
def channel? (text : List Char) : Option UInt8 :=
  (naturalBelow? 256 (Text.trim text)).map UInt8.ofNat

/-- The colour of a key such as `184,156,135`. -/
def ColorHint.ofKey? (key : String) (weight : Binary .double) : Option ColorHint :=
  match (commaParts key.toList).map channel? with
  | [some red, some green, some blue] => some { red, green, blue, weight }
  | _ => none

/-- Compiles a colour. -/
def compileColorHint (place : Place) : String × Binary .double → Except Failure ColorHint
  | (key, weight) =>
    match ColorHint.ofKey? key weight with
    | some hint => .ok hint
    | none => failConfig (.badColorHint place key)

/-- Compiles the patterns of a denomination, which are all for one engine. -/
def compilePatterns (place : Place) (config : Config.Denomination) :
    Except Failure (List Matcher) :=
  match config.patterns.isEmpty, config.dualPatterns.isEmpty with
  | false, true => compileAll (compileLinear place) config.patterns
  | true, false => compileAll (compileBacktracking place .leftToRight) config.dualPatterns
  | true, true => failConfig (.noPatterns place)
  | false, false => failConfig (.twoPatternKinds place)

/-- Compiles a denomination. -/
def DenominationRule.compile (code denomination : String) (config : Config.Denomination) :
    Except Failure DenominationRule := do
  let place := Place.denomination code denomination
  let value ← match naturalBelow? (1 <<< 64) denomination.toList with
    | some value => .ok value
    | none => failConfig (.keyNotNumeric place)
  let patterns ← compilePatterns place config
  let fuzzyIgnore ← compileAll (compileLinear place) config.fuzzyIgnore
  let colorHints ← compileAll (compileColorHint place) config.colorHints.entries
  return {
    denomination, value, patterns, fuzzyIgnore, colorHints
    joinMethod := config.joinMethod
    fuzzy := config.fuzzy.map fun f => Fuzzy.Model.train f.vocabulary f.depth }

/-- Compiles the pattern of a directive, which has just one.  The linear engine searches from the
left whatever the direction. -/
def compilePattern (place : Place) (config : Config.Directive) : Except Failure Matcher :=
  match config.pattern, config.dualPattern with
  | some pattern, none => compileLinear place pattern
  | none, some pattern => compileBacktracking place config.direction pattern
  | _, _ => failConfig (.notOnePattern place)

/-- The result filter of a name. -/
def compileResultFilter (name : String) : Except Failure ResultFilter :=
  match ResultFilter.ofName? name with
  | some filter => .ok filter
  | none => failConfig (.unknownResultFilter name)

/-- The match filter of a name. -/
def compileMatchFilter (name : String) : Except Failure MatchFilter :=
  match MatchFilter.ofName? name with
  | some filter => .ok filter
  | none => failConfig (.unknownMatchFilter name)

/-- Compiles a directive. -/
def SerialPlan.compile (place : Place) (config : Config.Directive) :
    Except Failure SerialPlan := do
  let matcher ← compilePattern place config
  if matcher.groupCount ≤ config.captureGroup then
    failConfig (.noSuchGroup place config.captureGroup (matcher.groupCount - 1) matcher.source)
  let tokensToRemove ← compileAll (compileLinear place) config.tokensToRemove
  let resultFilters ← compileAll compileResultFilter config.resultFilters
  let matchFilters ← compileAll compileMatchFilter config.matchFilters
  return {
    name := place.label, matcher, tokensToRemove, resultFilters, matchFilters
    captureGroup := config.captureGroup
    joinMethod := config.joinMethod }

/-- Compiles an entry of a serial tree; a reference is taken as it is. -/
def SerialEntry.compile (code key : String) : Config.Entry → Except Failure SerialEntry
  | .concrete directive => (SerialPlan.compile (.directive code key) directive).map .concrete
  | .reference name => .ok (.reference name)

/-- Compiles a serial tree. -/
def SerialTree.compile (code : String) (config : Config.Serial) : Except Failure SerialTree := do
  let root ← SerialPlan.compile (.directive code Place.serialKey) config.root
  let entries ← config.entries.traverse (SerialEntry.compile code)
  return { root, entries }

/-- Compiles a currency.  Rules of equal value stay in the order of their keys. -/
def Currency.compile (code : String) (config : Config.Currency) : Except Failure Currency := do
  let textMarks ← compileAll (compileLinear (.textMarks code)) config.textMarks
  let rules ← config.denominations.traverse (DenominationRule.compile code)
  let serial ← match config.serial with
    | none => .ok none
    | some serial => (SerialTree.compile code serial).map some
  return {
    code, textMarks, serial
    language := config.language
    denominations := rules.values.mergeSort fun a b => a.value ≤ b.value }

/-- Compiles a table. -/
def CurrencyTable.ofConfig (source : Config.Table) : Except Failure CurrencyTable := do
  let currencies ← source.traverse Currency.compile
  return { currencies, source }

/-- Reads and compiles a table. -/
def CurrencyTable.ofText (text : String) : Except Failure CurrencyTable :=
  match Config.tableOfText text with
  | .ok source => ofConfig source
  | .error fault => .error (.json fault)

end Banknote
