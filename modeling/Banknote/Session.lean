import Banknote.Config.Builtin
import Banknote.Config.Writer
import Banknote.Currency.Compile
import Banknote.Directory
import Banknote.Recognition.Process
import Banknote.Recognition.Reader

/-!
# Sessions

A `Session` has a current table of currencies, tables that were kept under names, and a directory of
files.  A `Step` asks it something or changes it; `Session.step` gives the answer and the session
after the step.  Only `replace`, `load` and `restore` change the current table, and only if they
succeed.
-/

namespace Banknote

open Recognition (Label Outcome Request Settings)

/-- The table that is built in. -/
def CurrencyTable.builtin : Except Failure CurrencyTable :=
  CurrencyTable.ofText Config.builtinText

/-- The table of a text, or the one that is built in. -/
def CurrencyTable.ofSource : Option String → Except Failure CurrencyTable
  | none => builtin
  | some text => ofText text

/-- The table of a file, given its text.  A folder can be opened, so it is the reader of JSON that
fails there. -/
def CurrencyTable.ofFile : Except FileFault String → Except Failure CurrencyTable
  | .ok text => ofText text
  | .error .isDirectory => .error (.json (.malformed (.file .isDirectory)))
  | .error fault => .error (.io fault)

/-- The settings of a text. -/
def Recognition.Settings.ofText (text : String) : Except Failure Settings :=
  match Json.readText Settings.ofDoc text.toList with
  | .ok settings => .ok settings
  | .error fault => .error (.json fault)

/-- The JSON text of the configuration of a table, one item to a line. -/
def CurrencyTable.text (t : CurrencyTable) : String := (Config.tableToJson t.source).pretty

/-- A current table and what belongs to it. -/
structure Session where
  /-- The settings of every recognition. -/
  settings : Settings
  /-- The current table. -/
  table : CurrencyTable
  /-- Tables kept under names. -/
  kept : KeyMap CurrencyTable := .empty
  /-- The files of the session. -/
  directory : Directory := .empty
  deriving Inhabited

/-- What a session can be asked to do. -/
inductive Step where
  /-- Recognizes a note. -/
  | process (request : Request)
  /-- Recognizes a note from raw texts, which stand in the place of the tokens. -/
  | processTexts (request : Request)
  /-- Recognizes a denomination. -/
  | classify (code : String) (tokens : List String)
  /-- Expands tokens with the suggestions of a denomination. -/
  | expand (code denomination : String) (tokens : List String)
  /-- Asks whether a denomination fits the tokens. -/
  | ruleMatches (code denomination : String) (tokens : List String)
  /-- Picks the plan for a denomination. -/
  | resolve (code : String) (denomination : Option String)
  /-- Looks for a serial number. -/
  | extract (code : String) (denomination : Option String) (tokens : List String)
  /-- Asks whether the labels speak for money. -/
  | isMoney (labels : List Label)
  /-- Asks whether the text marks of a currency are found. -/
  | hasTextMarks (code : String) (tokens : List String)
  /-- Asks whether a code is in the table. -/
  | isValidCode (code : String)
  /-- Asks whether a currency has a denomination. -/
  | isValidDenomination (code denomination : String)
  /-- Asks for all that is known about a code. -/
  | lookup (code : String)
  /-- Asks for the language of a currency. -/
  | language (code : String)
  /-- Asks for the denominations of a currency. -/
  | denominations (code : String)
  /-- Asks for the text marks of a currency. -/
  | textMarks (code : String)
  /-- Asks for the codes about which something is known. -/
  | defined
  /-- Asks for all codes. -/
  | codes
  /-- Makes another table the current one: that of a text, or the one that is built in. -/
  | replace (source : Option String)
  /-- Keeps the current table under a name. -/
  | snapshot (name : String)
  /-- Asks for the codes of a table that was kept. -/
  | snapshotCodes (name : String)
  /-- Recognizes a denomination on a table that was kept. -/
  | snapshotClassify (name code : String) (tokens : List String)
  /-- Makes a table that was kept the current one. -/
  | restore (name : String)
  /-- Writes a file. -/
  | write (file text : String)
  /-- Saves the configuration of the current table. -/
  | save (file : String)
  /-- Makes the table of a file the current one. -/
  | load (file : String)
  deriving Inhabited

/-- What a session answers. -/
inductive Answer where
  | done
  | nothing
  | bool (value : Bool)
  | size (value : Nat)
  | text (value : String)
  | texts (values : List String)
  | outcome (value : Outcome)
  | plan (value : SerialPlan)
  | currency (value : Currency)
  /-- A table was loaded; `same` tells whether its configuration is that of the table before. -/
  | loaded (size : Nat) (same : Bool)

namespace Session

/-- Starts a session: the settings are read first, then the table. -/
def start (settings : Option String) (source : Option String) : Except Failure Session := do
  let settings ← match settings with
    | none => .ok {}
    | some text => Settings.ofText text
  let table ← CurrencyTable.ofSource source
  return { settings, table }

/-- The rule of a denomination. -/
def rule (s : Session) (code denomination : String) : Except Failure DenominationRule := do
  let c ← s.table.lookup code
  match c.rule? denomination with
  | some r => .ok r
  | none => .error (.invalidDenomination code denomination)

/-- The answer to a question about the current table.  What changes the session is no question and
has no answer here. -/
def answer (s : Session) : Step → Except Failure Answer
  | .process request => (Recognition.process s.table s.settings request).map .outcome
  | .processTexts request =>
    let request := { request with tokens := Token.ofTexts request.tokens }
    (Recognition.process s.table s.settings request).map .outcome
  | .classify code tokens => (s.table.lookup code).map fun c => .text (c.classify tokens)
  | .expand code denomination tokens =>
    (s.rule code denomination).map fun r => .texts (r.expand tokens)
  | .ruleMatches code denomination tokens =>
    (s.rule code denomination).map fun r => .bool (r.isMatch tokens)
  | .resolve code denomination => do
    let c ← s.table.lookup code
    let tree ← c.serialTree
    return .plan (← tree.resolve denomination)
  | .extract code denomination tokens => do
    let c ← s.table.lookup code
    let tree ← c.serialTree
    return .text (← tree.extract denomination tokens)
  | .isMoney labels => .ok (.bool (s.settings.isMoney labels))
  | .hasTextMarks code tokens =>
    (s.table.lookup code).map fun c => .bool (c.hasTextMarks tokens)
  | .isValidCode code => .ok (.bool (s.table.get? code).isSome)
  | .isValidDenomination code denomination =>
    (s.table.lookup code).map fun c => .bool (c.rule? denomination).isSome
  | .lookup code => (s.table.lookup code).map .currency
  | .language code =>
    (s.table.lookup code).map fun c => (c.language.map .text).getD .nothing
  | .denominations code =>
    (s.table.lookup code).map fun c =>
      .texts (c.denominations.map DenominationRule.denomination)
  | .textMarks code =>
    (s.table.lookup code).map fun c => .texts (c.textMarks.map Pattern.Matcher.source)
  | .defined => .ok (.texts s.table.definedCodes)
  | .codes => .ok (.texts s.table.codes)
  | .snapshotCodes name =>
    let codes := (s.kept.get? name).map CurrencyTable.codes
    .ok ((codes.map .texts).getD .nothing)
  | .snapshotClassify name code tokens =>
    let currency := (s.kept.get? name).bind (·.get? code)
    .ok ((currency.map fun c => .text (c.classify tokens)).getD .nothing)
  | _ => .ok .nothing

/-- Makes a table the current one, if there is one. -/
def publish (s : Session) (table : Except Failure CurrencyTable)
    (answer : CurrencyTable → Answer) : Except Failure Answer × Session :=
  match table with
  | .ok t => (.ok (answer t), { s with table := t })
  | .error failure => (.error failure, s)

/-- Takes over a change of the files, if there is one. -/
def store (s : Session) (change : Except FileFault Directory) (answer : Answer) :
    Except Failure Answer × Session :=
  match change with
  | .ok directory => (.ok answer, { s with directory })
  | .error fault => (.error (.io fault), s)

/-- The failure that a fault is at a stage of a save: the text is handed over by the writer of JSON,
and the other stages are left to the files. -/
def saveFailure : Directory.Stage → FileFault → Failure
  | .write, fault => .json (.malformed (.file fault))
  | _, fault => .io fault

/-- Saves the configuration of the current table. -/
def save (s : Session) (course : Directory.Course) (file : String) :
    Except Failure Answer × Session :=
  match s.directory.saveAmid course file s.table.text with
  | (.ok (), directory) => (.ok (.text s.table.text), { s with directory })
  | (.error (stage, fault), directory) => (.error (saveFailure stage fault), { s with directory })

/-- The table of a file. -/
def loadTable (d : Directory) (file : String) : Except Failure CurrencyTable :=
  CurrencyTable.ofFile (d.read file)

/-- The answer to a step and the session after it. -/
def step (s : Session) : Step → Except Failure Answer × Session
  | .replace source => s.publish (CurrencyTable.ofSource source) fun t => .size t.size
  | .snapshot name => (.ok (.size s.table.size), { s with kept := s.kept.insert name s.table })
  | .restore name =>
    match s.kept.get? name with
    | some t => (.ok (.size t.size), { s with table := t })
    | none => (.ok .nothing, s)
  | .write file text => s.store (s.directory.write file text) .done
  | .save file => s.save {} file
  | .load file =>
    s.publish (loadTable s.directory file) fun t =>
      .loaded t.size (t.source == s.table.source)
  | question => (s.answer question, s)

/-- The answers to some steps. -/
def run (s : Session) : List Step → List (Except Failure Answer)
  | [] => []
  | first :: rest =>
    let (answer, s) := s.step first
    answer :: run s rest

end Session

end Banknote
