import Banknote.Session

/-!
# The command line

One request is read from a file, answered, and reported.  The arguments name the table, or
`builtin`, and the request; the table may also be named by a variable of the environment, and so may
the settings.

`Report.run` is the program without its inputs and outputs: it reads files through a function, and
answers with what is to be printed and the exit status.  Two things come from outside and are given
to it: the lines that are logged on the way, and the detail with which the first failure is told.
-/

namespace Banknote

/-- What a run of the program prints, and its exit status. -/
structure Report where
  /-- The exit status. -/
  status : Nat
  /-- The text on the standard output. -/
  output : String := ""
  /-- The text on the standard error output. -/
  errors : String := ""
  deriving DecidableEq, Repr, Inhabited

namespace Report

/-- The variable that names the table. -/
def tableVariable : String := "MINT_CURRENCY_META"

/-- The variable that names the settings. -/
def settingsVariable : String := "MINT_ENGINE_CONFIG"

/-- The name of the table that is built in. -/
def builtinName : String := "builtin"

/-- How a piece of text is set off. -/
inductive Style where
  | dim | good | missing | bad
  deriving DecidableEq, Repr

/-- What switches a style on. -/
def Style.start : Style → String
  | dim => "\x1b[2m"
  | good => "\x1b[38;5;10m\x1b[1m"
  | missing => "\x1b[38;5;11m"
  | bad => "\x1b[38;5;9m\x1b[1m"

/-- What switches a style off. -/
def Style.stop : Style → String
  | missing => "\x1b[39m"
  | _ => "\x1b[0m"

/-- A text in a style. -/
def styled (style : Style) (text : String) : String := style.start ++ text ++ style.stop

/-- A value that was found, or the word for a missing one. -/
def finding (value missing : String) : String :=
  if value.isEmpty then styled .missing missing else styled .good value

/-- The line of tokens. -/
def tokensLine (tokens : List String) : String :=
  "Tokens: " ++ styled .dim (String.intercalate " " tokens) ++ "\n"

/-- The line above an outcome. -/
def rule : String := "---------------------------------------------------------------\n"

/-- The lines of an outcome. -/
def outcomeLines (o : Recognition.Outcome) : String :=
  rule ++ "Denomination: " ++ finding o.denomination "not detected" ++ "\n" ++
    "Serial:       " ++ finding o.serial "not found" ++ "\n"

/-- The line of a failure. -/
def failureLine (detail : Failure.Detail) (failure : Failure) : String :=
  styled .bad "[ERROR]" ++ " " ++ failure.wording detail ++ "\n"

/-- How the program is called. -/
def usage : String := "usage: mint_probe [<currency-meta.json>|builtin] <request.json>\n"

/-- The text of a file, with the failure that a missing one is. -/
def textOf (read : String → Except FileFault String) (path : String) : Except Failure String :=
  match read path with
  | .ok text => .ok text
  | .error fault => .error (.io fault)

/-- What the program works with. -/
structure Inputs where
  /-- The table. -/
  table : CurrencyTable
  /-- The settings. -/
  settings : Recognition.Settings
  /-- The request. -/
  request : Recognition.Request

/-- Reads a request that holds raw texts. -/
def requestOfText (text : String) : Except Failure Recognition.Request :=
  match Json.readText Recognition.Request.ofTexts text.toList with
  | .ok request => .ok request
  | .error fault => .error (.json fault)

/-- Reads the table, then the settings, then the request. -/
def inputs (read : String → Except FileFault String) (table : String) (settings : Option String)
    (request : String) : Except Failure Inputs := do
  let table ←
    if table = builtinName then CurrencyTable.builtin else CurrencyTable.ofFile (read table)
  let settings ← match settings with
    | some path => Recognition.Settings.ofText (← textOf read path)
    | none => .ok {}
  let request ← requestOfText (← textOf read request)
  return { table, settings, request }

/-- What a run of the program is told from outside. -/
structure Surroundings where
  /-- What is logged before the end. -/
  log : String := ""
  /-- The detail of the first failure. -/
  detail : Failure.Detail := {}
  deriving Inhabited

/-- The report of a failure after some output. -/
def failed (around : Surroundings) (output : String) (failure : Failure) : Report :=
  { status := 1, output, errors := around.log ++ failureLine around.detail failure }

/-- Answers a request. -/
def ofInputs (around : Surroundings) (i : Inputs) : Report :=
  let tokens := tokensLine i.request.tokens
  match Recognition.process i.table i.settings i.request with
  | .ok outcome => { status := 0, output := tokens ++ outcomeLines outcome, errors := around.log }
  | .error failure => failed around tokens failure

/-- Runs the program on a table and a request that are named. -/
def ofNames (read : String → Except FileFault String) (table : String) (settings : Option String)
    (request : String) (around : Surroundings) : Report :=
  match inputs read table settings request with
  | .ok i => ofInputs around i
  | .error failure => failed around "" failure

/-- Runs the program on its arguments and the two variables of its environment.  Nothing has been
logged when the arguments turn out to be too few or too many. -/
def run (read : String → Except FileFault String) (table settings : Option String)
    (args : List String) (around : Surroundings := {}) : Report :=
  match args with
  | [request] => ofNames read (table.getD builtinName) settings request around
  | [table, request] => ofNames read table settings request around
  | _ => { status := 2, errors := usage }

end Report

end Banknote
