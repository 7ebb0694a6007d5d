import Banknote.FileFault
import Banknote.Json.Basic
import Banknote.Text.Visible

/-!
# What can be wrong with a JSON text

A text is malformed when it breaks the grammar of JSON or cannot be passed between its reader or
writer and its file (`TextFault`), and its data are wrong when it keeps the grammar but has not the
shape that the reader asks for (`DataFault`).  `Fault.message` words both.  Where in the text
something is wrong is no part of a fault: a program that tells the line and the column adds them to
the wording.
-/

namespace Banknote.Json

/-- A break of the grammar, or a failure of the file that holds the text. -/
inductive TextFault where
  | endInValue | endInList | endInObject | endInString
  | expectedValue | expectedIdent | expectedColon | expectedCommaInList | expectedCommaInObject
  | keyNotString | trailingComma | trailingCharacters
  | invalidNumber | numberTooLarge
  | invalidEscape | endInEscape | controlCharacter | loneSurrogate
  | tooDeep
  /-- The file fails while the text is read from it or written to it. -/
  | file (fault : FileFault)
  deriving DecidableEq, Repr, Inhabited

namespace TextFault

/-- The wording of a break of the grammar, or that of the failure of the file. -/
def message : TextFault → String
  | endInValue => "EOF while parsing a value"
  | endInList => "EOF while parsing a list"
  | endInObject => "EOF while parsing an object"
  | endInString => "EOF while parsing a string"
  | expectedValue => "expected value"
  | expectedIdent => "expected ident"
  | expectedColon => "expected `:`"
  | expectedCommaInList => "expected `,` or `]`"
  | expectedCommaInObject => r"expected `,` or `}`"
  | keyNotString => "key must be a string"
  | trailingComma => "trailing comma"
  | trailingCharacters => "trailing characters"
  | invalidNumber => "invalid number"
  | numberTooLarge => "number out of range"
  | invalidEscape => "invalid escape"
  | endInEscape => "unexpected end of hex escape"
  | controlCharacter => "control character (\\u0000-\\u001F) found while parsing a string"
  | loneSurrogate => "lone leading surrogate in hex escape"
  | tooDeep => "recursion limit exceeded"
  | file fault => fault.message

end TextFault

/-- What stands in a text where something else is asked for. -/
inductive Found where
  | null
  | bool (b : Bool)
  | number (n : Number)
  | string (s : String)
  | sequence
  | map
  deriving Inhabited

namespace Found

/-- The wording of what was found. -/
def message : Found → String
  | null => "null"
  | bool b => "boolean `" ++ (if b then "true" else "false") ++ "`"
  | number (.real x) => "floating point `" ++ String.ofList (Numeral.ofBinary x).text ++ "`"
  | number n => "integer `" ++ String.ofList (Numeral.ofNumber n).text ++ "`"
  | string s => "string " ++ Text.quote s
  | sequence => "sequence"
  | map => "map"

end Found

/-- A text that keeps the grammar but has not the shape that is asked for. -/
inductive DataFault where
  /-- A member that the record does not have. -/
  | unknownField (name : String) (fields : List String)
  /-- A required member is not there. -/
  | missingField (name : String)
  /-- A member is there twice. -/
  | duplicateField (name : String)
  /-- Something of another kind. -/
  | invalidType (found : Found) (want : String)
  /-- Something of the right kind with an impossible value. -/
  | invalidValue (found : Found) (want : String)
  /-- A record given as a list that is too short. -/
  | invalidLength (length : Nat) (record : String) (elements : Nat)
  /-- A word that names no choice. -/
  | unknownVariant (name : String) (variants : List String)
  /-- No form of a serial entry fits. -/
  | noEntryForm
  /-- A serial entry is neither an object nor a name. -/
  | notDirective (key : String) (value : Json)
  /-- A fault inside a serial entry. -/
  | inDirective (key : String) (fault : DataFault)
  /-- A fault in the default directive of a serial tree. -/
  | inDefaultDirective (fault : DataFault)
  deriving Inhabited

namespace DataFault

/-- A word between backticks. -/
def ticked (s : String) : String := "`" ++ s ++ "`"

/-- What could stand in the place of a word that is not known. -/
def expected : List String → String
  | [] => "there are no fields"
  | [a] => "expected " ++ ticked a
  | [a, b] => "expected " ++ ticked a ++ " or " ++ ticked b
  | names => "expected one of " ++ String.intercalate ", " (names.map ticked)

/-- The wording of wrong data. -/
def message : DataFault → String
  | unknownField name fields => "unknown field " ++ ticked name ++ ", " ++ expected fields
  | missingField name => "missing field " ++ ticked name
  | duplicateField name => "duplicate field " ++ ticked name
  | invalidType found want => "invalid type: " ++ found.message ++ ", expected " ++ want
  | invalidValue found want => "invalid value: " ++ found.message ++ ", expected " ++ want
  | invalidLength length record elements =>
    "invalid length " ++ toString length ++ ", expected struct " ++ record ++ " with " ++
      toString elements ++ (if elements = 1 then " element" else " elements")
  | unknownVariant name variants => "unknown variant " ++ ticked name ++ ", " ++ expected variants
  | noEntryForm => "data did not match any variant of untagged enum DirectiveEntryConfig"
  | notDirective key value =>
    "directive '" ++ key ++ "' must be an object or a directive name, got " ++ value.compact
  | inDirective key fault => "directive '" ++ key ++ "': " ++ fault.message
  | inDefaultDirective fault => "default serial directive: " ++ fault.message

end DataFault

/-- What is wrong with a text. -/
inductive Fault where
  | malformed (fault : TextFault)
  | data (fault : DataFault)
  deriving Inhabited

/-- The wording of a fault. -/
def Fault.message : Fault → String
  | malformed fault => fault.message
  | data fault => fault.message

end Banknote.Json
