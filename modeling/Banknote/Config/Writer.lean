import Banknote.Config.Basic
import Banknote.Json.Basic

/-!
# Writing configurations

The JSON form of a configuration.  What is absent or empty is left out, except for the join method
of a denomination and for the direction, capture group, join method and result filters of a
directive.  The members of a serial tree, default directive and entries in one object, are in key
order at every level; all other objects list their fields in the order of the types.
-/

namespace Banknote.Config

/-- A member that is left out when there is nothing to write. -/
def optionalMember (key : String) : Option Json → List (String × Json)
  | some j => [(key, j)]
  | none => []

/-- A list of texts that is left out when it is empty. -/
def stringsMember (key : String) (items : List String) : List (String × Json) :=
  if items.isEmpty then [] else [(key, .strings items)]

/-- The word for a join method. -/
def joinMethodName : JoinMethod → String
  | .perToken => "none"
  | .spaced => "spaceDelimited"
  | .concatenated => "noDelimiter"

/-- The word for a direction. -/
def directionName : Pattern.Direction → String
  | .leftToRight => "leftToRight"
  | .rightToLeft => "rightToLeft"

/-- The JSON form of a map. -/
def mapToJson {α : Type} (value : α → Json) (m : KeyMap α) : Json :=
  .obj (m.entries.map fun (k, a) => (k, value a))

/-- The JSON form of a vocabulary. -/
def Fuzzy.toJson (f : Fuzzy) : Json :=
  .obj [("vocabulary", .strings f.vocabulary), ("depth", .nat f.depth)]

/-- The JSON form of a denomination. -/
def Denomination.toJson (d : Denomination) : Json :=
  .obj (stringsMember "patterns" d.patterns ++
    stringsMember "dualPatterns" d.dualPatterns ++
    [("joinMethod", .str (joinMethodName d.joinMethod))] ++
    optionalMember "fuzzy" (d.fuzzy.map Fuzzy.toJson) ++
    stringsMember "fuzzyIgnore" d.fuzzyIgnore ++
    (if d.colorHints.isEmpty then [] else [("colorHints", mapToJson .binary d.colorHints)]))

/-- The members of a directive. -/
def Directive.members (d : Directive) : List (String × Json) :=
  optionalMember "pattern" (d.pattern.map .str) ++
    optionalMember "dualPattern" (d.dualPattern.map .str) ++
    [("direction", .str (directionName d.direction)),
      ("captureGroup", .nat d.captureGroup),
      ("joinMethod", .str (joinMethodName d.joinMethod))] ++
    stringsMember "tokensToRemove" d.tokensToRemove ++
    [("resultFilters", .strings d.resultFilters)] ++
    stringsMember "matchFilters" d.matchFilters

/-- The JSON form of a directive. -/
def Directive.toJson (d : Directive) : Json := .obj d.members

/-- The JSON form of a directive or reference. -/
def Entry.toJson : Entry → Json
  | reference name => .str name
  | concrete d => d.toJson

/-- The members in key order. -/
def sortMembers (members : List (String × Json)) : List (String × Json) :=
  members.foldl (fun done (k, j) => KeyMap.put k j done) []

/-- The JSON form of an entry inside a tree. -/
def Entry.toTreeJson : Entry → Json
  | reference name => .str name
  | concrete d => .obj (sortMembers d.members)

/-- The JSON form of a serial tree. -/
def Serial.toJson (s : Serial) : Json :=
  .obj (sortMembers (s.root.members ++ s.entries.entries.map fun (k, e) => (k, e.toTreeJson)))

/-- The JSON form of a currency. -/
def Currency.toJson (c : Currency) : Json :=
  .obj (optionalMember "language" (c.language.map .str) ++
    stringsMember "textMarks" c.textMarks ++
    (if c.denominations.isEmpty then []
      else [("denominations", mapToJson Denomination.toJson c.denominations)]) ++
    optionalMember "serial" (c.serial.map Serial.toJson))

/-- The JSON form of a table. -/
def tableToJson (t : Table) : Json := mapToJson Currency.toJson t

end Banknote.Config
