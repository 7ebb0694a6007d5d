/-!
# Faults of files

What can keep a file from being read or written, and its wording.
-/

namespace Banknote

/-- A file that cannot be read or written. -/
inductive FileFault where
  | notFound | notDirectory | isDirectory
  /-- Something stands where a folder is to be made. -/
  | alreadyThere
  /-- A path that ends with points names no place for a file. -/
  | busy
  /-- A path holds the character 0. -/
  | zeroInPath
  /-- The fault lies outside the files, such as a full disk. -/
  | device (reason : String)
  deriving DecidableEq, Repr, Inhabited

namespace FileFault

/-- The wording of a fault. -/
def message : FileFault → String
  | notFound => "No such file or directory (os error 2)"
  | notDirectory => "Not a directory (os error 20)"
  | isDirectory => "Is a directory (os error 21)"
  | alreadyThere => "File exists (os error 17)"
  | busy => "Device or resource busy (os error 16)"
  | zeroInPath => "file name contained an unexpected NUL byte"
  | device reason => reason

end FileFault

end Banknote
