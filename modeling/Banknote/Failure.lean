import Banknote.Json.Fault

/-!
# Failures

Everything that can keep a table from being loaded or a banknote from being recognized.
`Failure.message` words it.  That no denomination fits, or that no serial number is found, is no
failure: the answer then holds an empty text.

Two kinds of failure are told with more than that: why a pattern does not compile, and where a JSON
text is wrong.  Both are said by whoever reads the pattern or the text (`Failure.Detail`), and
`Failure.wording` puts them behind the message.
-/

namespace Banknote

/-- A place in the configuration of currencies. -/
inductive Place where
  /-- The text marks of a currency. -/
  | textMarks (code : String)
  /-- A denomination of a currency, by its key. -/
  | denomination (code key : String)
  /-- A directive of a currency, by the key under which it stands. -/
  | directive (code key : String)
  /-- A pattern outside every table. -/
  | single (name : String)
  deriving DecidableEq, Repr, Inhabited

/-- The key under which the directives of a currency stand. -/
def Place.serialKey : String := "serial"

/-- The wording of a place. -/
def Place.label : Place → String
  | textMarks code => code ++ " text marks"
  | denomination code key => code ++ " denomination " ++ key
  | directive code key => code ++ " " ++ key
  | single name => name

/-- A part of a configuration that cannot be compiled. -/
inductive ConfigFault where
  /-- The key of a denomination is no number. -/
  | keyNotNumeric (place : Place)
  /-- A denomination has no pattern. -/
  | noPatterns (place : Place)
  /-- A denomination has patterns for both engines. -/
  | twoPatternKinds (place : Place)
  /-- The key of a colour is no triple of channels. -/
  | badColorHint (place : Place) (key : String)
  /-- A directive has no pattern, or one for each engine. -/
  | notOnePattern (place : Place)
  /-- A directive picks a group after the last one of its pattern. -/
  | noSuchGroup (place : Place) (group last : Nat) (pattern : String)
  /-- A name of no result filter. -/
  | unknownResultFilter (name : String)
  /-- A name of no match filter. -/
  | unknownMatchFilter (name : String)
  deriving DecidableEq, Repr, Inhabited

namespace ConfigFault

/-- The wording of a fault. -/
def message : ConfigFault → String
  | keyNotNumeric place => place.label ++ ": denomination key must be numeric"
  | noPatterns place => place.label ++ ": no patterns configured"
  | twoPatternKinds place => place.label ++ ": set either patterns or dualPatterns, not both"
  | badColorHint place key => place.label ++ ": bad color hint '" ++ key ++ "'"
  | notOnePattern place => place.label ++ ": exactly one of pattern or dualPattern is required"
  | noSuchGroup place group last pattern =>
    place.label ++ ": capture group " ++ toString group ++ " exceeds the " ++ toString last ++
      " groups of '" ++ pattern ++ "'"
  | unknownResultFilter name => "unknown result filter '" ++ name ++ "'"
  | unknownMatchFilter name => "unknown match filter '" ++ name ++ "'"

end ConfigFault

/-- Why a table was not loaded or a banknote not recognized. -/
inductive Failure where
  /-- The table has no such code. -/
  | unknownCurrency (code : String)
  /-- The table lists the code and says nothing about the currency. -/
  | notConfigured (code : String)
  /-- The currency has no such denomination. -/
  | invalidDenomination (code denomination : String)
  /-- A serial tree has no entry of the name. -/
  | directiveNotDefined (name : String)
  /-- The entry of the name is itself a reference. -/
  | unsupportedReference (name : String)
  /-- No label says that there is money on the photo. -/
  | notMoney
  /-- A text mark of the currency is missing. -/
  | textMarkMismatch (code : String)
  /-- A pattern does not compile; the reason is a detail. -/
  | invalidPattern (place : Place) (pattern : String)
  /-- A configuration cannot be compiled. -/
  | invalidConfig (fault : ConfigFault)
  /-- A file cannot be opened, made, put in the place of another one, or read or written as a plain
  text. -/
  | io (fault : FileFault)
  /-- A JSON text cannot be read, or not be written.  A file that fails while JSON is read from it
  or written to it is such a failure, too. -/
  | json (fault : Json.Fault)
  deriving Inhabited

namespace Failure

/-- The wording of a failure. -/
def message : Failure → String
  | unknownCurrency code => "unknown currency code '" ++ code ++ "'"
  | notConfigured code => "currency '" ++ code ++ "' has no recognition metadata"
  | invalidDenomination code denomination =>
    "denomination '" ++ denomination ++ "' is not registered for currency '" ++ code ++ "'"
  | directiveNotDefined name => "serial directive '" ++ name ++ "' not defined"
  | unsupportedReference name => "unsupported reference to serial directive '" ++ name ++ "'"
  | notMoney => "not money"
  | textMarkMismatch code => "text mark check failed for currency '" ++ code ++ "'"
  | invalidPattern place pattern => "invalid pattern '" ++ pattern ++ "' in " ++ place.label
  | invalidConfig fault => "invalid currency metadata: " ++ fault.message
  | io fault => fault.message
  | json fault => fault.message

/-- Whether the failure is of the kind Io: a file is what failed.  The readers and writers of JSON
pass the failure of a file on as one of their own, of the category Io beside those for wrong texts. -/
def isIo : Failure → Bool
  | io _ | json (.malformed (.file _)) => true
  | _ => false

/-- What is said about a failure beside its message. -/
structure Detail where
  /-- Why a pattern does not compile. -/
  reason? : Option String := none
  /-- The line and the column where a JSON text is wrong. -/
  position? : Option (Nat × Nat) := none
  deriving Repr, Inhabited

/-- The reason behind a message. -/
def Detail.reasonText (d : Detail) : String :=
  match d.reason? with
  | some reason => ": " ++ reason
  | none => ""

/-- The line and the column behind a message. -/
def Detail.positionText (d : Detail) : String :=
  match d.position? with
  | some (line, column) => " at line " ++ toString line ++ " column " ++ toString column
  | none => ""

/-- The wording of a failure with its detail.  That a file fails has no place in a text. -/
def wording (detail : Detail) (failure : Failure) : String :=
  match failure with
  | invalidPattern _ _ => failure.message ++ detail.reasonText
  | json fault => if failure.isIo then fault.message else fault.message ++ detail.positionText
  | _ => failure.message

end Failure

end Banknote
