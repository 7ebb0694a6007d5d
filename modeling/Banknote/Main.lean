import Banknote.Report

/-!
# The program

Reads the files that the arguments and the environment name, and prints the report.
-/

namespace Banknote

/-- Reads a file, or tells why not. -/
def readFile (path : String) : IO (Except FileFault String) := do
  try
    return .ok (← IO.FS.readFile path)
  catch
    | .noFileOrDirectory .. => return .error .notFound
    | .inappropriateType .. => return .error .isDirectory
    | fault => return .error (.device (toString fault))

/-- Reads some files. -/
def readFiles (paths : List String) : IO (List (String × Except FileFault String)) :=
  paths.mapM fun path => do return (path, ← readFile path)

end Banknote

open Banknote in
/-- Runs the program. -/
def main (args : List String) : IO UInt32 := do
  let table ← IO.getEnv Report.tableVariable
  let settings ← IO.getEnv Report.settingsVariable
  let files ← readFiles (args ++ table.toList ++ settings.toList)
  let report :=
    Report.run (fun path => (files.lookup path).getD (.error .notFound)) table settings args
  IO.print report.output
  IO.eprint report.errors
  return report.status.toUInt32
