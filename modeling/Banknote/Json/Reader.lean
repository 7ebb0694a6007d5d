import Banknote.Json.Document
import Banknote.KeyMap

/-!
# Reading data from documents

A reader takes a `Doc` and answers with data or with the first fault, in the order of the text.
There are readers for texts, numbers, lists, maps, optional data, choices and records.

A record may be written as an object or as the list of its fields in their order.  `Record.read`
walks either form; fields that are missing at the end are settled by a function that knows the form,
since the two forms word a missing field differently.

Where a part of a document has been read whole before its data are looked at (`Doc.buffer`), the
data come from a value instead of a text.  A `Source` tells the two apart; they differ in what they
say about a choice that is neither a word nor an object.
-/

namespace Banknote.Json

/-- Answers with a fault in the data. -/
def failData {α : Type} (fault : DataFault) : Except Fault α := .error (.data fault)

/-- Answers with a break of the grammar. -/
def failText {α : Type} (fault : TextFault) : Except Fault α := .error (.malformed fault)

/-- Where data come from. -/
inductive Source where
  /-- A text that is read from front to back. -/
  | streamed
  /-- A value that was read whole before. -/
  | buffered
  deriving DecidableEq, Repr, Inhabited

namespace Doc

/-- The complaint about a document where something else is wanted.  What breaks the grammar is
complained about first. -/
def mismatch {α : Type} (want : String) : Doc → Except Fault α
  | .null => failData (.invalidType .null want)
  | .bool b => failData (.invalidType (.bool b) want)
  | .num n =>
    match n.value? with
    | some v => failData (.invalidType (.number v) want)
    | none => failText .numberTooLarge
  | .str (.ok s) => failData (.invalidType (.string s) want)
  | .str (.error fault) => failText fault
  | .arr _ _ => failData (.invalidType .sequence want)
  | .obj _ _ => failData (.invalidType .map want)
  | .broken fault => failText fault

/-- Succeeds unless there is a break. -/
def unbroken : Option TextFault → Except Fault Unit
  | none => .ok ()
  | some fault => failText fault

mutual

/-- Passes over a document, which only has to keep the grammar. -/
def skip : Doc → Except Fault Unit
  | .arr items ending => do
    skipItems items
    unbroken ending
  | .obj members ending => do
    skipMembers members
    unbroken ending
  | .broken fault => failText fault
  | _ => .ok ()

/-- Passes over items. -/
def skipItems : List Doc → Except Fault Unit
  | [] => .ok ()
  | d :: rest => do
    d.skip
    skipItems rest

/-- Passes over members. -/
def skipMembers : List (Except TextFault String × Doc) → Except Fault Unit
  | [] => .ok ()
  | (_, d) :: rest => do
    d.skip
    skipMembers rest

end

/-- Reads a text. -/
def text : Doc → Except Fault String
  | .str (.ok s) => .ok s
  | d => d.mismatch "a string"

/-- Reads a natural number below `2 ^ 64`. -/
def natural : Doc → Except Fault Nat
  | .num n =>
    match n.value? with
    | some (.natural m) => .ok m
    | some (.negative m) => failData (.invalidValue (.number (.negative m)) "usize")
    | some v => failData (.invalidType (.number v) "usize")
    | none => failText .numberTooLarge
  | d => d.mismatch "usize"

/-- Reads a number of a binary format: a whole number is rounded once, any other number is a double
first. -/
def binary (f : BinaryFormat) (want : String) : Doc → Except Fault (Binary f)
  | .num n =>
    match n.value? with
    | some (.natural m) => .ok (Binary.ofNat m)
    | some (.negative m) => .ok (Binary.ofNat m).neg
    | some (.real x) => .ok (x.convert f)
    | none => failText .numberTooLarge
  | d => d.mismatch want

/-- Reads a single. -/
def single : Doc → Except Fault (Binary .single) := binary .single "f32"

/-- Reads a double. -/
def double : Doc → Except Fault (Binary .double) := binary .double "f64"

/-- Reads null. -/
def unit : Doc → Except Fault Unit
  | .null => .ok ()
  | d => d.mismatch "unit"

/-- Reads items one after the other. -/
def items {α : Type} (item : Doc → Except Fault α) : List Doc → Except Fault (List α)
  | [] => .ok []
  | d :: rest => do
    let a ← item d
    let as ← items item rest
    return a :: as

/-- Reads a list. -/
def list {α : Type} (item : Doc → Except Fault α) : Doc → Except Fault (List α)
  | .arr ds ending => do
    let as ← items item ds
    unbroken ending
    return as
  | d => d.mismatch "a sequence"

/-- Reads members into a map, the last of one key over the others. -/
def mapMembers {α : Type} (value : Doc → Except Fault α) (m : KeyMap α) :
    List (Except TextFault String × Doc) → Except Fault (KeyMap α)
  | [] => .ok m
  | (.error fault, _) :: _ => failText fault
  | (.ok key, d) :: rest => do
    let a ← value d
    mapMembers value (m.insert key a) rest

/-- Reads an object with arbitrary keys. -/
def map {α : Type} (value : Doc → Except Fault α) : Doc → Except Fault (KeyMap α)
  | .obj members ending => do
    let m ← mapMembers value .empty members
    unbroken ending
    return m
  | d => d.mismatch "a map"

/-- Reads null as nothing and anything else with the given reader. -/
def option {α : Type} (some? : Doc → Except Fault α) : Doc → Except Fault (Option α)
  | .null => .ok none
  | d => (some? d).map some

/-- The choice that a word names. -/
def chosen {α : Type} (choices : List (String × α)) (word : String) : Except Fault α :=
  match choices.lookup word with
  | some a => .ok a
  | none => failData (.unknownVariant word (choices.map Prod.fst))

/-- Reads one of several words, or an object whose only member has such a word for its key and null
for its value. -/
def choice {α : Type} (source : Source) (choices : List (String × α)) : Doc → Except Fault α
  | .str (.ok word) => chosen choices word
  | .str (.error fault) => failText fault
  | .obj members ending =>
    match source, members with
    | .buffered, [(.ok word, d)] => do
      let a ← chosen choices word
      d.unit
      return a
    | .buffered, _ => failData (.invalidValue .map "map with a single key")
    | .streamed, [] => failText (ending.getD .expectedValue)
    | .streamed, (.ok word, d) :: rest => do
      let a ← chosen choices word
      d.unit
      unbroken (if rest.isEmpty then ending else some .expectedValue)
      return a
    | .streamed, (.error .keyNotString, d) :: _ => d.mismatch "variant identifier"
    | .streamed, (.error fault, _) :: _ => failText fault
  | .broken fault => failText fault
  | d =>
    match source with
    | .streamed => failText .expectedValue
    | .buffered => d.mismatch "string or map"

mutual

/-- Reads a document whole, with numbers as they are written and the members of every object in key
order, the last one of a key.  At most `depth` arrays and objects may be nested. -/
def buffer (depth : Nat) : Doc → Except Fault Json
  | .null => .ok .null
  | .bool b => .ok (.bool b)
  | .num n =>
    match n.value? with
    | some v => .ok (.num (.ofNumber v))
    | none => failText .numberTooLarge
  | .str (.ok s) => .ok (.str s)
  | .str (.error fault) => failText fault
  | .arr ds ending =>
    if depth = 0 then failText .tooDeep
    else do
      let js ← bufferItems (depth - 1) ds
      unbroken ending
      return .arr js
  | .obj ms ending =>
    if depth = 0 then failText .tooDeep
    else do
      let js ← bufferMembers (depth - 1) [] ms
      unbroken ending
      return .obj js
  | .broken fault => failText fault

/-- Reads items whole. -/
def bufferItems (depth : Nat) : List Doc → Except Fault (List Json)
  | [] => .ok []
  | d :: rest => do
    let j ← d.buffer depth
    let js ← bufferItems depth rest
    return j :: js

/-- Reads members whole, into those read before. -/
def bufferMembers (depth : Nat) (done : List (String × Json)) :
    List (Except TextFault String × Doc) → Except Fault (List (String × Json))
  | [] => .ok done
  | (.error fault, _) :: _ => failText fault
  | (.ok key, d) :: rest => do
    let j ← d.buffer depth
    bufferMembers depth (KeyMap.put key j done) rest

end

end Doc

mutual

/-- A value as a document. -/
def toDoc : Json → Doc
  | .null => .null
  | .bool b => .bool b
  | .num n => .num n
  | .str s => .str (.ok s)
  | .arr items => .arr (toDocs items) none
  | .obj members => .obj (toDocMembers members) none

/-- Values as documents. -/
def toDocs : List Json → List Doc
  | [] => []
  | j :: rest => toDoc j :: toDocs rest

/-- Members as documents. -/
def toDocMembers : List (String × Json) → List (Except TextFault String × Doc)
  | [] => []
  | (k, j) :: rest => (.ok k, toDoc j) :: toDocMembers rest

end

/-- The form in which a record was written. -/
inductive Form where
  | members
  | items (length : Nat)
  deriving DecidableEq, Repr, Inhabited

/-- A record type as it is written: a name, the fields in their order, whether other members are
refused, and a reader that stores a field's data in a draft of the record. -/
structure Record (δ : Type) where
  /-- The name that complaints use. -/
  name : String
  /-- The fields. -/
  fields : List String
  /-- Whether members that are no fields are refused. -/
  closed : Bool
  /-- Reads the data of a field into a draft. -/
  set : δ → String → Doc → Except Fault δ

namespace Record

variable {δ α : Type}

/-- Reads the members of a record into a draft; `seen` holds the fields that were read. -/
def readMembers (r : Record δ) (draft : δ) (seen : List String) :
    List (Except TextFault String × Doc) → Except Fault δ
  | [] => .ok draft
  | (.error fault, _) :: _ => failText fault
  | (.ok key, d) :: rest =>
    if r.fields.contains key then
      if seen.contains key then failData (.duplicateField key)
      else do
        let draft ← r.set draft key d
        r.readMembers draft (key :: seen) rest
    else if r.closed then failData (.unknownField key r.fields)
    else do
      d.skip
      r.readMembers draft seen rest

/-- Reads the items of a record written as a list into a draft; items without a field break the
text. -/
def readItems (r : Record δ) (draft : δ) : List String → List Doc → Except Fault δ
  | _, [] => .ok draft
  | [], _ :: _ => failText .trailingCharacters
  | field :: fields, d :: rest => do
    let draft ← r.set draft field d
    r.readItems draft fields rest

/-- Reads a record in either form, from an empty draft. -/
def read (r : Record δ) (empty : δ) (finish : Form → δ → Except Fault α) : Doc → Except Fault α
  | .obj members ending => do
    let draft ← r.readMembers empty [] members
    Doc.unbroken ending
    finish .members draft
  | .arr items ending => do
    let draft ← r.readItems empty r.fields items
    Doc.unbroken ending
    finish (.items items.length) draft
  | d => d.mismatch ("struct " ++ r.name)

/-- The data of a field that must be there. -/
def require (r : Record δ) (form : Form) (field : String) : Option α → Except Fault α
  | some a => .ok a
  | none =>
    match form with
    | .members => failData (.missingField field)
    | .items length => failData (.invalidLength length r.name r.fields.length)

end Record

end Banknote.Json
