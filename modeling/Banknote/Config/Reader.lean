import Banknote.Config.Basic
import Banknote.Json.Reader

/-!
# Reading configurations

Readers of every part of a configuration.  Tables, currencies, denominations and vocabularies are
read as they come.  A serial tree is read whole first: its entries are looked at in key order, and
then what is left as the default directive.
-/

namespace Banknote.Config

open Json

/-- The words for the join methods. -/
def joinMethods : List (String × JoinMethod) :=
  [("no", .perToken), ("none", .perToken), ("spaceDelimited", .spaced),
    ("space_delimited", .spaced), ("noDelimiter", .concatenated), ("no_delimiter", .concatenated)]

/-- The words for the directions. -/
def directions : List (String × Pattern.Direction) :=
  [("leftToRight", .leftToRight), ("left_to_right", .leftToRight),
    ("rightToLeft", .rightToLeft), ("right_to_left", .rightToLeft)]

/-- Reads a list of texts. -/
def strings : Doc → Except Fault (List String) := Doc.list Doc.text

/-- A vocabulary that is being read. -/
structure FuzzyDraft where
  /-- The words, once read. -/
  vocabulary : Option (List String) := none
  /-- The depth, once read. -/
  depth : Option Nat := none

/-- Vocabularies as records. -/
def fuzzyRecord : Record FuzzyDraft where
  name := "FuzzyConfig"
  fields := ["vocabulary", "depth"]
  closed := true
  set draft field d :=
    if field = "vocabulary" then (strings d).map fun v => { draft with vocabulary := some v }
    else d.natural.map fun v => { draft with depth := some v }

/-- Reads a vocabulary; both fields must be there. -/
def Fuzzy.ofDoc : Doc → Except Fault Fuzzy :=
  fuzzyRecord.read {} fun form draft => do
    let vocabulary ← fuzzyRecord.require form "vocabulary" draft.vocabulary
    let depth ← fuzzyRecord.require form "depth" draft.depth
    return { vocabulary, depth }

/-- Denominations as records. -/
def denominationRecord : Record Denomination where
  name := "DenominationConfig"
  fields := ["patterns", "dualPatterns", "joinMethod", "fuzzy", "fuzzyIgnore", "colorHints"]
  closed := true
  set draft field d :=
    match field with
    | "patterns" => (strings d).map fun v => { draft with patterns := v }
    | "dualPatterns" => (strings d).map fun v => { draft with dualPatterns := v }
    | "joinMethod" => (d.choice .streamed joinMethods).map fun v => { draft with joinMethod := v }
    | "fuzzy" => (d.option Fuzzy.ofDoc).map fun v => { draft with fuzzy := v }
    | "fuzzyIgnore" => (strings d).map fun v => { draft with fuzzyIgnore := v }
    | _ => (d.map Doc.double).map fun v => { draft with colorHints := v }

/-- Reads a denomination. -/
def Denomination.ofDoc : Doc → Except Fault Denomination :=
  denominationRecord.read {} fun _ draft => .ok draft

/-- Directives as records. -/
def directiveRecord (source : Source) : Record Directive where
  name := "DirectiveConfig"
  fields := ["pattern", "dualPattern", "direction", "captureGroup", "joinMethod",
    "tokensToRemove", "resultFilters", "matchFilters"]
  closed := true
  set draft field d :=
    match field with
    | "pattern" => (d.option Doc.text).map fun v => { draft with pattern := v }
    | "dualPattern" => (d.option Doc.text).map fun v => { draft with dualPattern := v }
    | "direction" => (d.choice source directions).map fun v => { draft with direction := v }
    | "captureGroup" => d.natural.map fun v => { draft with captureGroup := v }
    | "joinMethod" => (d.choice source joinMethods).map fun v => { draft with joinMethod := v }
    | "tokensToRemove" => (strings d).map fun v => { draft with tokensToRemove := v }
    | "resultFilters" => (strings d).map fun v => { draft with resultFilters := v }
    | _ => (strings d).map fun v => { draft with matchFilters := v }

/-- Reads a directive. -/
def Directive.ofDoc (source : Source) : Doc → Except Fault Directive :=
  (directiveRecord source).read {} fun _ draft => .ok draft

/-- The number of arrays and objects that may be nested in a text. -/
def maxDepth : Nat := 127

/-- Reads an entry on its own: a name, or a directive in either form of a record.  The entry is read
whole first, so a break of the grammar comes before all else, and no further reason is given. -/
def Entry.ofDoc (d : Doc) : Except Fault Entry := do
  let _ ← d.buffer maxDepth
  match d with
  | .str (.ok name) => return .reference name
  | d =>
    match Directive.ofDoc .buffered d with
    | .ok directive => return .concrete directive
    | .error _ => failData .noEntryForm

/-- Adds where a fault in the data was found; a break of the grammar stays what it is. -/
def locate (place : DataFault → DataFault) : Fault → Fault
  | .data fault => .data (place fault)
  | .malformed fault => .malformed fault

/-- Reads an entry of a serial tree: a name or a directive written as an object. -/
def Entry.ofMember (key : String) : Json → Except Fault Entry
  | .str name => .ok (.reference name)
  | .obj members =>
    match Directive.ofDoc .buffered (toDoc (.obj members)) with
    | .ok d => .ok (.concrete d)
    | .error fault => .error (locate (.inDirective key) fault)
  | other => failData (.notDirective key other)

/-- Splits the members of a serial tree, which are in key order, into entries and the members of
the default directive. -/
def splitMembers : List (String × Json) →
    Except Fault (List (String × Entry) × List (String × Json))
  | [] => .ok ([], [])
  | (key, value) :: rest =>
    if isEntryKey key then do
      let entry ← Entry.ofMember key value
      let (entries, members) ← splitMembers rest
      return ((key, entry) :: entries, members)
    else do
      let (entries, members) ← splitMembers rest
      return (entries, (key, value) :: members)

/-- A serial tree from its members in key order. -/
def Serial.ofMembers (members : List (String × Json)) : Except Fault Serial := do
  let (entries, rest) ← splitMembers members
  match Directive.ofDoc .buffered (toDoc (.obj rest)) with
  | .ok root => return ⟨root, .ofList entries⟩
  | .error fault => throw (locate .inDefaultDirective fault)

/-- Reads a serial tree; at most `depth` arrays and objects may be nested in its members. -/
def Serial.ofDoc (depth : Nat) : Doc → Except Fault Serial
  | .obj members ending => do
    let js ← Doc.bufferMembers depth [] members
    Doc.unbroken ending
    Serial.ofMembers js
  | d => d.mismatch "a map"

/-- Currencies as records. -/
def currencyRecord : Record Currency where
  name := "CurrencyConfig"
  fields := ["language", "textMarks", "denominations", "serial"]
  closed := true
  set draft field d :=
    match field with
    | "language" => (d.option Doc.text).map fun v => { draft with language := v }
    | "textMarks" => (strings d).map fun v => { draft with textMarks := v }
    | "denominations" =>
      (d.map Denomination.ofDoc).map fun v => { draft with denominations := v }
    | _ => (d.option (Serial.ofDoc (maxDepth - 3))).map fun v => { draft with serial := v }

/-- Reads a currency. -/
def Currency.ofDoc : Doc → Except Fault Currency :=
  currencyRecord.read {} fun _ draft => .ok draft

/-- Reads a table. -/
def tableOfDoc : Doc → Except Fault Table := Doc.map Currency.ofDoc

/-- Reads a table from its text. -/
def tableOfText (text : String) : Except Fault Table := readText tableOfDoc text.toList

end Banknote.Config
