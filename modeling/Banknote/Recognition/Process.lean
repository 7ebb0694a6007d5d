import Banknote.Recognition.Basic
import Banknote.Recognition.Classify
import Banknote.Recognition.Serial

/-!
# Recognizing a banknote

`process` answers a request on a table of currencies.  The code is looked up in upper case and
without blanks around it.  The currency must be described, a denomination that is given must be one
of its own, a label must speak for money, and every text mark must be found.  Then the denomination
is recognized unless it is given, and the serial number is looked for.
-/

namespace Banknote

namespace Recognition

/-- The code that a request means. -/
def normalizedCode (code : String) : String :=
  String.ofList (Text.upper (Text.trim code.toList))

/-- Whether a label speaks for money, surely enough. -/
def Settings.counts (s : Settings) (label : Label) : Bool :=
  label.score.atLeast s.minLabelScore && s.moneyLabels.contains label.description

/-- Whether some label speaks for money. -/
def Settings.isMoney (s : Settings) (labels : List Label) : Bool := labels.any s.counts

end Recognition

namespace Currency

/-- Whether every text mark is found in some token. -/
def hasTextMarks (c : Currency) (tokens : List String) : Bool :=
  c.textMarks.all fun mark => tokens.any mark.isMatch

end Currency

/-- What is known about a code; a code that is not there is a failure. -/
def CurrencyTable.lookup (t : CurrencyTable) (code : String) : Except Failure Currency :=
  match t.get? code with
  | some c => .ok c
  | none => .error (.unknownCurrency code)

namespace Recognition

/-- The currency that a request is about, if the request can be about it. -/
def requested (t : CurrencyTable) (r : Request) : Except Failure Currency :=
  let code := normalizedCode r.currencyCode
  match t.lookup code with
  | .error failure => .error failure
  | .ok c =>
    if !c.isDefined then .error (.notConfigured code)
    else if !r.denomination.isEmpty && (c.rule? r.denomination).isNone then
      .error (.invalidDenomination code r.denomination)
    else .ok c

/-- The denomination that is given or else recognized. -/
def workingDenomination (c : Currency) (r : Request) : String :=
  if r.denomination.isEmpty then c.classify r.tokens else r.denomination

/-- Answers a request. -/
def process (t : CurrencyTable) (s : Settings) (r : Request) : Except Failure Outcome := do
  let c ← requested t r
  if !s.isMoney r.labels then throw .notMoney
  if !c.hasTextMarks r.tokens then throw (.textMarkMismatch c.code)
  let denomination := workingDenomination c r
  let tree ← c.serialTree
  let serial ← tree.extract (some denomination) r.tokens
  return { denomination, serial }

end Recognition

end Banknote
