import Banknote.Json.Fault

/-!
# JSON documents as far as they can be read

A `Doc` is what a JSON text holds, in the order of the text and up to the place, if any, where the
text breaks the grammar.  An array or object that was left in the middle says so in its `ending`.
Duplicate members stay, and a string that holds half of a surrogate pair stays as a flaw, since
whoever skips it need not mind.

A reader of a `Doc` that walks it from front to back meets its own complaints and the break of the
grammar in the order of the text, so the first problem of a text wins.
-/

namespace Banknote.Json

/-- A JSON text as far as it keeps the grammar. -/
inductive Doc where
  | null
  | bool (b : Bool)
  | num (n : Numeral)
  /-- A string, or the flaw that keeps it from being one. -/
  | str (s : Except TextFault String)
  /-- Items, and the break after the last of them. -/
  | arr (items : List Doc) (ending : Option TextFault)
  /-- Members, and the break after the last of them. -/
  | obj (members : List (Except TextFault String × Doc)) (ending : Option TextFault)
  /-- A place where no value can be read. -/
  | broken (fault : TextFault)
  deriving Inhabited

/-- The blanks between the parts of a text. -/
def isSpace (c : Char) : Bool := c == ' ' || c == '\n' || c == '\t' || c == '\r'

/-- The text after its leading blanks. -/
def skipSpace (text : List Char) : List Char := text.dropWhile isSpace

/-- The rest of a text after a word. -/
def expectWord : List Char → List Char → Except TextFault (List Char)
  | [], rest => .ok rest
  | _ :: _, [] => .error .endInValue
  | w :: word, c :: rest => if c = w then expectWord word rest else .error .expectedIdent

/-- The value of a hexadecimal digit. -/
def hexDigit? (c : Char) : Option Nat :=
  if '0' ≤ c ∧ c ≤ '9' then some (c.toNat - '0'.toNat)
  else if 'a' ≤ c ∧ c ≤ 'f' then some (c.toNat - 'a'.toNat + 10)
  else if 'A' ≤ c ∧ c ≤ 'F' then some (c.toNat - 'A'.toNat + 10)
  else none

/-- The value of hexadecimal digits. -/
def hexValue? (digits : List Char) : Option Nat :=
  digits.foldlM (fun n c => (hexDigit? c).map (n * 16 + ·)) 0

/-- Whether a code unit is the second half of a surrogate pair. -/
def isLowSurrogate (n : Nat) : Bool := 0xDC00 ≤ n && n ≤ 0xDFFF

/-- Whether a code unit is the first half of a surrogate pair. -/
def isHighSurrogate (n : Nat) : Bool := 0xD800 ≤ n && n ≤ 0xDBFF

/-- The character of a surrogate pair. -/
def pairChar (high low : Nat) : Char :=
  Char.ofNat (0x10000 + (high - 0xD800) * 0x400 + (low - 0xDC00))

/-- The character that a letter after a backslash stands for. -/
def escaped? (c : Char) : Option Char :=
  match c with
  | '"' => some '"'
  | '\\' => some '\\'
  | '/' => some '/'
  | 'b' => some '\x08'
  | 'f' => some '\x0c'
  | 'n' => some '\n'
  | 'r' => some '\r'
  | 't' => some '\t'
  | _ => none

/-- A string that is being read. -/
structure Partial where
  /-- The characters read, last one first. -/
  done : List Char
  /-- The first half of a surrogate pair whose second half must come next. -/
  half : Option Nat
  /-- The first half pair that was left alone. -/
  flaw : Option TextFault

namespace Partial

/-- The start of a string. -/
def start : Partial := ⟨[], none, none⟩

/-- Notes a fault unless one was noted before. -/
def note (p : Partial) (fault : TextFault) : Partial := { p with flaw := p.flaw <|> some fault }

/-- Takes a character; a half pair that waits is left alone. -/
def push (p : Partial) (c : Char) : Partial :=
  let p := if p.half.isSome then p.note .endInEscape else p
  { p with done := c :: p.done, half := none }

/-- Takes an escaped code unit, which may be half of a pair. -/
def pushUnit (p : Partial) (n : Nat) : Partial :=
  match p.half with
  | some high =>
    if isLowSurrogate n then { p with done := pairChar high n :: p.done, half := none }
    else { p.note .loneSurrogate with half := if isHighSurrogate n then some n else none }
  | none =>
    if isHighSurrogate n then { p with half := some n }
    else if isLowSurrogate n then p.note .loneSurrogate
    else { p with done := Char.ofNat n :: p.done }

/-- The string that was read, or its flaw. -/
def finish (p : Partial) : Except TextFault String :=
  match (if p.half.isSome then p.note .endInEscape else p).flaw with
  | some fault => .error fault
  | none => .ok (String.ofList p.done.reverse)

end Partial

/-- Reads a string after its opening quote, with the rest of the text. -/
def scanString (p : Partial) : List Char → Except TextFault (Except TextFault String × List Char)
  | [] => .error .endInString
  | '"' :: rest => .ok (p.finish, rest)
  | '\\' :: 'u' :: a :: b :: c :: d :: rest =>
    match hexValue? [a, b, c, d] with
    | none => .error .invalidEscape
    | some n => scanString (p.pushUnit n) rest
  | '\\' :: 'u' :: _ => .error .endInString
  | '\\' :: c :: rest =>
    match escaped? c with
    | some e => scanString (p.push e) rest
    | none => .error .invalidEscape
  | ['\\'] => .error .endInString
  | c :: rest => if c.toNat < 0x20 then .error .controlCharacter else scanString (p.push c) rest

/-- Reads one or more digits, with the rest of the text. -/
def scanDigits (text : List Char) : Except TextFault (List Char × List Char) :=
  let digits := text.takeWhile Char.isDigit
  let rest := text.dropWhile Char.isDigit
  if digits.isEmpty then .error (if rest.isEmpty then .endInValue else .invalidNumber)
  else .ok (digits, rest)

/-- Reads the fraction of a numeral, if there is one. -/
def scanFraction : List Char → Except TextFault (Option (List Char) × List Char)
  | '.' :: rest => (scanDigits rest).map fun (digits, rest) => (some digits, rest)
  | rest => .ok (none, rest)

/-- Reads the sign of an exponent. -/
def scanSign : List Char → ExponentSign × List Char
  | '+' :: rest => (.plus, rest)
  | '-' :: rest => (.minus, rest)
  | rest => (.none, rest)

/-- Reads the exponent of a numeral, if there is one. -/
def scanExponent : List Char → Except TextFault (Option Exponent × List Char)
  | c :: rest =>
    if c = 'e' ∨ c = 'E' then
      let (sign, rest) := scanSign rest
      (scanDigits rest).map fun (digits, rest) => (some ⟨sign, digits⟩, rest)
    else .ok (none, c :: rest)
  | [] => .ok (none, [])

/-- Reads a numeral, with the rest of the text.  A zero in front of other digits is refused. -/
def scanNumeral (text : List Char) : Except TextFault (Numeral × List Char) := do
  let (negative, rest) := match text with
    | '-' :: rest => (true, rest)
    | rest => (false, rest)
  let (whole, rest) ← scanDigits rest
  if whole.head? = some '0' ∧ 1 < whole.length then throw .invalidNumber
  let (fraction, rest) ← scanFraction rest
  let (exponent, rest) ← scanExponent rest
  return (⟨negative, whole, fraction, exponent⟩, rest)

/-- The place of the next item of an array: past a comma, unless the item is the first one. -/
def nextItem (first : Bool) (text : List Char) : Except TextFault (List Char) :=
  if first then .ok text
  else match text with
    | ',' :: rest =>
      match skipSpace rest with
      | [] => .error .endInValue
      | ']' :: _ => .error .trailingComma
      | rest => .ok rest
    | _ => .error .expectedCommaInList

/-- The place of the next member of an object: past a comma, unless the member is the first one. -/
def nextMember (first : Bool) (text : List Char) : Except TextFault (List Char) :=
  if first then .ok text
  else match text with
    | ',' :: rest =>
      match skipSpace rest with
      | [] => .error .endInValue
      | '}' :: _ => .error .trailingComma
      | '"' :: rest => .ok ('"' :: rest)
      | _ => .error .keyNotString
    | _ => .error .expectedCommaInObject

/-- What has been read, and the text after it unless a break came first. -/
structure Scan (α : Type) where
  /-- What has been read. -/
  item : α
  /-- The text after it. -/
  rest : Option (List Char)
  deriving Inhabited

/-- Reads the rest of a keyword. -/
def scanKeyword (word : List Char) (doc : Doc) (text : List Char) : Scan Doc :=
  match expectWord word text with
  | .error fault => ⟨.broken fault, none⟩
  | .ok rest => ⟨doc, some rest⟩

mutual

/-- Reads one value.  The first argument bounds the number of steps. -/
def scanValue : Nat → List Char → Scan Doc
  | 0, _ => ⟨.broken .endInValue, none⟩
  | fuel + 1, text =>
    match skipSpace text with
    | [] => ⟨.broken .endInValue, none⟩
    | 'n' :: rest => scanKeyword ['u', 'l', 'l'] .null rest
    | 't' :: rest => scanKeyword ['r', 'u', 'e'] (.bool true) rest
    | 'f' :: rest => scanKeyword ['a', 'l', 's', 'e'] (.bool false) rest
    | '"' :: rest =>
      match scanString .start rest with
      | .error fault => ⟨.broken fault, none⟩
      | .ok (s, rest) => ⟨.str s, some rest⟩
    | '[' :: rest =>
      let (items, ending, rest) := scanItems fuel true rest
      ⟨.arr items ending, rest⟩
    | '{' :: rest =>
      let (members, ending, rest) := scanMembers fuel true rest
      ⟨.obj members ending, rest⟩
    | c :: rest =>
      if c = '-' ∨ c.isDigit then
        match scanNumeral (c :: rest) with
        | .error fault => ⟨.broken fault, none⟩
        | .ok (n, rest) => ⟨.num n, some rest⟩
      else ⟨.broken .expectedValue, none⟩

/-- Reads items up to the end of their array. -/
def scanItems : Nat → Bool → List Char → List Doc × Option TextFault × Option (List Char)
  | 0, _, _ => ([], some .endInList, none)
  | fuel + 1, first, text =>
    match skipSpace text with
    | [] => ([], some .endInList, none)
    | ']' :: rest => ([], none, some rest)
    | text =>
      match nextItem first text with
      | .error fault => ([], some fault, none)
      | .ok text =>
        match scanValue fuel text with
        | ⟨doc, none⟩ => ([doc], some .endInList, none)
        | ⟨doc, some rest⟩ =>
          let (items, ending, rest) := scanItems fuel false rest
          (doc :: items, ending, rest)

/-- Reads members up to the end of their object.  Where the first key is no string, the value that
stands there is kept beside the fault. -/
def scanMembers : Nat → Bool → List Char →
    List (Except TextFault String × Doc) × Option TextFault × Option (List Char)
  | 0, _, _ => ([], some .endInObject, none)
  | fuel + 1, first, text =>
    match skipSpace text with
    | [] => ([], some .endInObject, none)
    | '}' :: rest => ([], none, some rest)
    | text =>
      match nextMember first text with
      | .error fault => ([], some fault, none)
      | .ok ('"' :: rest) =>
        match scanString .start rest with
        | .error fault => ([(.error fault, .broken fault)], some fault, none)
        | .ok (key, rest) =>
          match skipSpace rest with
          | [] => ([(key, .broken .endInObject)], some .endInObject, none)
          | ':' :: rest =>
            match scanValue fuel rest with
            | ⟨doc, none⟩ => ([(key, doc)], some .endInObject, none)
            | ⟨doc, some rest⟩ =>
              let (members, ending, rest) := scanMembers fuel false rest
              ((key, doc) :: members, ending, rest)
          | _ => ([(key, .broken .expectedColon)], some .expectedColon, none)
      | .ok text =>
        ([(.error .keyNotString, (scanValue fuel text).item)], some .keyNotString, none)

end

/-- Reads a text from its start. -/
def scan (text : List Char) : Scan Doc := scanValue (2 * text.length + 2) text

/-- Reads a text with a reader of documents; nothing but blanks may follow. -/
def readText {α : Type} (reader : Doc → Except Fault α) (text : List Char) : Except Fault α := do
  let scanned := scan text
  let result ← reader scanned.item
  match scanned.rest with
  | none => throw (.malformed .endInValue)
  | some rest =>
    if (skipSpace rest).isEmpty then return result else throw (.malformed .trailingCharacters)

end Banknote.Json
