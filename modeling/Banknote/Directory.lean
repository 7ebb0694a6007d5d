import Banknote.FileFault
import Banknote.KeyMap

/-!
# Folders and text files

A `Directory` is a tree of folders and text files.  A place in it is given by the names that lead
there from the root, and `Directory.entries` holds what stands at the places.

A path is a text whose names are separated by slashes.  It starts at the root if it starts with a
slash, and at the folder `home` otherwise.  A point leads nowhere and two points lead upwards, but
only from a folder that is there.

`read`, `write` and `save` fail without a change of any file when the path leads through a file or to
a folder.  They differ where a folder is missing: `save` makes it, `write` fails.

A save makes the folder of the path, writes the text to a new file in it, and then puts that file in
the place of the path.  It takes five stages, and each of them may fail for a reason that is not in
the directory (`Course`).  Whatever stage fails, the new file is taken away again; the folders that
were made stay.
-/

namespace Banknote

/-- What stands at a place. -/
inductive Entry where
  | file (text : String)
  | folder
  deriving DecidableEq, Repr, Inhabited

/-- A tree of folders and text files. -/
structure Directory where
  /-- The folder where a path starts that does not start with a slash. -/
  home : List String
  /-- What stands at the places, by their keys.  The root needs no entry. -/
  entries : KeyMap Entry

namespace Directory

/-! ## Places -/

/-- The key of a place: its names, each behind a slash. -/
def key (place : List String) : String := "/" ++ String.intercalate "/" place

/-- What stands at a place.  At the root there is a folder. -/
def find? (d : Directory) (place : List String) : Option Entry :=
  if place.isEmpty then some .folder else d.entries.get? (key place)

/-- The text of the file under a key. -/
def text? (d : Directory) (key : String) : Option String :=
  match d.entries.get? key with
  | some (.file text) => some text
  | _ => none

/-- Puts something at a place. -/
def put (d : Directory) (key : String) (entry : Entry) : Directory :=
  { d with entries := d.entries.insert key entry }

/-- Takes away what stands at a place. -/
def remove (d : Directory) (key : String) : Directory :=
  { d with entries := d.entries.erase key }

/-- A home without files. -/
def empty : Directory :=
  let home := ["home"]
  { home, entries := .ofList [(key home, .folder)] }

instance : Inhabited Directory := ⟨empty⟩

/-! ## Paths -/

/-- The names of a path.  Several slashes are as good as one. -/
def names (path : String) : List String :=
  ((path.toList.splitOn '/').map String.ofList).filter (· != "")

/-- The names that lead to the folder of a path, as the path is written, without points. -/
def folderNames (path : String) : List String := ((names path).filter (· != ".")).dropLast

/-- The last name of a path. -/
def lastName (path : String) : String := (names path).getLast?.getD "."

/-- Whether a path ends with a slash, so that it can only mean a folder. -/
def endsInSlash (path : String) : Bool := path.toList.getLast? == some '/'

/-- Whether a name only says where to go. -/
def isPoints (name : String) : Bool := name == "." || name == ".."

/-- The place to which a name leads from another place. -/
def next (place : List String) (name : String) : List String :=
  if name == "." then place else if name == ".." then place.dropLast else place ++ [name]

/-- The folder where a path starts. -/
def start (d : Directory) (path : String) : Except FileFault (List String) :=
  if path.toList.contains '\x00' then .error .zeroInPath
  else
    match path.toList.head? with
    | none => .error .notFound
    | some first => .ok (if first == '/' then [] else d.home)

/-- Goes on by a name from a place, where a folder must be. -/
def enter (d : Directory) (place : List String) (name : String) :
    Except FileFault (List String) :=
  match d.find? place with
  | some .folder => .ok (next place name)
  | some (.file _) => .error .notDirectory
  | none => .error .notFound

/-- Goes on by some names. -/
def walk (d : Directory) : List String → List String → Except FileFault (List String)
  | place, [] => .ok place
  | place, name :: rest =>
    match d.enter place name with
    | .ok place => d.walk place rest
    | .error fault => .error fault

/-- The place to which a path leads, whether or not something stands there. -/
def locate (d : Directory) (path : String) : Except FileFault (List String) :=
  match d.start path with
  | .ok place => d.walk place (names path)
  | .error fault => .error fault

/-- The place where a path can put a file: no folder is there, and the path ends with a name.  Two
faults are told that depend on what is to be done there: for points at the end, and for a slash. -/
def slot (d : Directory) (path : String) (points slash : FileFault) :
    Except FileFault (List String) :=
  match d.locate path with
  | .error fault => .error fault
  | .ok place =>
    if isPoints (lastName path) then .error points
    else if endsInSlash path then .error slash
    else if d.find? place = some .folder then .error .isDirectory
    else .ok place

/-! ## Reading and writing -/

/-- The text of a file. -/
def read (d : Directory) (path : String) : Except FileFault String :=
  match d.locate path with
  | .error fault => .error fault
  | .ok place =>
    match d.find? place with
    | some (.file text) => if endsInSlash path then .error .notDirectory else .ok text
    | some .folder => .error .isDirectory
    | none => .error .notFound

/-- Stores a text in a folder that is there. -/
def write (d : Directory) (path text : String) : Except FileFault Directory :=
  match d.slot path .isDirectory .isDirectory with
  | .ok place => .ok (d.put (key place) (.file text))
  | .error fault => .error fault

/-! ## Saving -/

/-- The stages of a save. -/
inductive Stage where
  /-- The folder of the path is made, if it is missing. -/
  | makeFolder
  /-- A new file is made in the folder. -/
  | makeFile
  /-- The text is handed over, and a part of it is written to the new file. -/
  | write
  /-- What was held back of the text is written. -/
  | flush
  /-- The new file takes the place of the path, in one step. -/
  | rename
  deriving DecidableEq, Repr

/-- What happens to a save from outside the directory. -/
structure Course where
  /-- How many names of the folder have been gone through before making it fails. -/
  entered : Nat := 0
  /-- How many characters have been written when the whole text has been handed over. -/
  written : Nat := 0
  /-- A stage that fails, and the reason. -/
  outage : Option (Stage × FileFault) := none

/-- The reason why a stage fails, if it does. -/
def Course.fault? (course : Course) (stage : Stage) : Option FileFault :=
  match course.outage with
  | some (broken, fault) => if broken = stage then some fault else none
  | none => none

/-- Goes on by some names and makes the folders that are missing.  From the first one on that is made
(`made`), every further folder is made by itself, so a file on the way is found where a folder is to
be made. -/
def makeFolders (d : Directory) (made : Bool) (place : List String) :
    List String → Except FileFault (List String) × Directory
  | [] => (d.enter place ".", d)
  | name :: rest =>
    match d.enter place name with
    | .error fault => (.error fault, d)
    | .ok place =>
      match d.find? place with
      | some .folder => d.makeFolders made place rest
      | some (.file _) =>
        (.error (if made || rest.isEmpty then .alreadyThere else .notDirectory), d)
      | none => (d.put (key place) .folder).makeFolders true place rest

/-- The place where the folder of a path starts.  A path that goes nowhere has its folder at home. -/
def folderStart (d : Directory) (path : String) : List String :=
  if path.toList.head? = some '/' && (names path).any (· != ".") then [] else d.home

/-- Makes the folder of a path, as the course of events has it. -/
def makeFolder (course : Course) (d : Directory) (path : String) :
    Except FileFault (List String) × Directory :=
  if (folderNames path).any (·.toList.contains '\x00') then (.error .zeroInPath, d)
  else
    match course.fault? .makeFolder with
    | some fault =>
      let entered := (folderNames path).take course.entered
      (.error fault, (d.makeFolders false (d.folderStart path) entered).2)
    | none => d.makeFolders false (d.folderStart path) (folderNames path)

/-- A save whose folder is there. -/
structure Saving where
  /-- The path at which the text is saved. -/
  path : String
  /-- The text. -/
  text : String
  /-- The key of the new file. -/
  newFile : String
  /-- What happens on the way. -/
  course : Course

namespace Saving

/-- The part of the text that is written before the rest is flushed. -/
def firstPart (w : Saving) : String := String.ofList (w.text.toList.take w.course.written)

/-- What a stage does to a directory if nothing comes in between.  The folder has been made. -/
def perform (w : Saving) (d : Directory) : Stage → Except FileFault Unit × Directory
  | .makeFolder => (.ok (), d)
  | .makeFile => (.ok (), d.put w.newFile (.file ""))
  | .write => (.ok (), d.put w.newFile (.file w.firstPart))
  | .flush => (.ok (), d.put w.newFile (.file w.text))
  | .rename =>
    match d.slot w.path .busy .notDirectory with
    | .error fault => (.error fault, d)
    | .ok place =>
      match d.text? w.newFile with
      | some text => (.ok (), (d.remove w.newFile).put (key place) (.file text))
      | none => (.error .notFound, d)

/-- What is left of a stage that fails for a reason outside the directory: a part of the text may
have been written, but nothing has been renamed. -/
def interrupt (w : Saving) (d : Directory) : Stage → Directory
  | .write | .flush => d.put w.newFile (.file w.firstPart)
  | _ => d

/-- Takes a stage. -/
def step (w : Saving) (d : Directory) (stage : Stage) : Except FileFault Unit × Directory :=
  match w.course.fault? stage with
  | some fault => (.error fault, w.interrupt d stage)
  | none => w.perform d stage

/-- Takes some stages.  When one of them fails, the new file is taken away. -/
def run (w : Saving) (d : Directory) : List Stage → Except (Stage × FileFault) Unit × Directory
  | [] => (.ok (), d)
  | stage :: rest =>
    match w.step d stage with
    | (.ok (), d) => w.run d rest
    | (.error fault, d) => (.error (stage, fault), d.remove w.newFile)

end Saving

/-- A name that is longer than every key, so nothing is there under it. -/
def newName (d : Directory) : String :=
  ".tmp" ++ String.ofList (List.replicate ((d.entries.keys.map String.length).max?.getD 0) 'x')

/-- Stores a text and makes the folder of the path if it is missing, as the course of events has
it.  A failure comes with its stage. -/
def saveAmid (course : Course) (d : Directory) (path text : String) :
    Except (Stage × FileFault) Unit × Directory :=
  match d.makeFolder course path with
  | (.error fault, d) => (.error (.makeFolder, fault), d)
  | (.ok folder, d) =>
    let newFile := key (folder ++ [d.newName])
    Saving.run ⟨path, text, newFile, course⟩ d [.makeFile, .write, .flush, .rename]

/-- Stores a text and makes the folder of the path if it is missing. -/
def save (d : Directory) (path text : String) : Except FileFault Directory :=
  match d.saveAmid {} path text with
  | (.ok (), d) => .ok d
  | (.error (_, fault), _) => .error fault

/-- The home with some files, given by their paths and texts. -/
def ofFiles (files : List (String × String)) : Directory :=
  files.foldl (fun d (path, text) => (d.saveAmid {} path text).2) empty

end Directory

end Banknote
