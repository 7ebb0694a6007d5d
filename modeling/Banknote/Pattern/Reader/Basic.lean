import Banknote.Pattern.Engine
import Banknote.Text.Blank
import Banknote.Text.Category

/-!
# The small parts of a pattern's text

Blanks and notes between the parts, decimal and hexadecimal numbers, repeat counts, names of groups
and flags.  The two engines read dialects of one language; where they differ, a reader takes the
engine as an argument.
-/

namespace Banknote.Pattern.Reader

/-- The flags that hold at a place of a pattern. -/
structure Flags where
  /-- Case does not count. -/
  caseless : Bool := false
  /-- `^` and `$` stand at lines. -/
  multiline : Bool := false
  /-- A point takes a line feed too. -/
  dotAll : Bool := false
  /-- Lines also end with a carriage return. -/
  returns : Bool := false
  /-- Repeats are lazy unless marked otherwise. -/
  ungreedy : Bool := false
  /-- Blanks and notes may stand between the parts. -/
  spaced : Bool := false
  deriving DecidableEq, Repr, Inhabited

/-- A place in a pattern, with what has been read before it. -/
structure Cursor where
  /-- What is left of the pattern. -/
  rest : List Char
  /-- The number of groups opened. -/
  groups : Nat := 0
  /-- The names of groups, the last one first. -/
  names : List (String × Nat) := []
  /-- Whether a reference by number occurred. -/
  numbered : Bool := false
  /-- The groups that the place is in. -/
  enclosing : List Nat := []
  deriving Inhabited

/-- What kind of note is being passed over. -/
inductive Note where
  /-- None. -/
  | none
  /-- One that ends with its line. -/
  | line
  /-- One in parentheses. -/
  | group
  deriving DecidableEq

/-- Whether blanks of a spaced pattern include the character. -/
def isPatternBlank (engine : Engine) (c : Char) : Bool :=
  match engine with
  | .linear => Text.isBlank c
  | .backtracking => c == ' ' || c == '\n' || c == '\r' || c == '\t'

/-- Passes over blanks and notes.  Notes in parentheses are known to the backtracking engine only
and must be closed. -/
def skipFrom (engine : Engine) (spaced : Bool) : Note → List Char → Option (List Char)
  | .group, [] => none
  | _, [] => some []
  | .line, c :: rest => skipFrom engine spaced (if c = '\n' then .none else .line) rest
  | .group, [_] => none
  | .group, c :: d :: rest =>
    if c = ')' then skipFrom engine spaced .none (d :: rest)
    else if c = '\\' then skipFrom engine spaced .group rest
    else skipFrom engine spaced .group (d :: rest)
  | .none, '(' :: '?' :: '#' :: rest =>
    if engine = .backtracking then skipFrom engine spaced .group rest
    else some ('(' :: '?' :: '#' :: rest)
  | .none, c :: rest =>
    if spaced && isPatternBlank engine c then skipFrom engine spaced .none rest
    else if spaced && c = '#' then skipFrom engine spaced .line rest
    else some (c :: rest)

/-- Passes over blanks and notes between two parts. -/
def skip (engine : Engine) (flags : Flags) (text : List Char) : Option (List Char) :=
  skipFrom engine flags.spaced .none text

/-- The greatest number in a pattern. -/
def maxNumber : Nat := 1 <<< 32 - 1

/-- Reads a decimal number. -/
def number (text : List Char) : Option (Nat × List Char) :=
  let digits := text.takeWhile Char.isDigit
  let n := digits.foldl (fun n c => n * 10 + (c.toNat - '0'.toNat)) 0
  if digits.isEmpty || maxNumber < n then none else some (n, text.dropWhile Char.isDigit)

/-- Reads the counts of a repeat after its opening brace. -/
def counts (engine : Engine) (flags : Flags) (text : List Char) :
    Option ((Nat × Option Nat) × List Char) := do
  let text ← skip engine flags text
  let (least, text) ← match engine, text with
    | .backtracking, ',' :: _ => some (0, text)
    | _, _ => number text
  let text ← skip engine flags text
  match text with
  | '}' :: rest => return ((least, some least), rest)
  | ',' :: rest =>
    let rest ← skip engine flags rest
    match number rest with
    | some (most, rest) =>
      let rest ← skip engine flags rest
      match rest with
      | '}' :: rest => if least ≤ most then return ((least, some most), rest) else none
      | _ => none
    | none =>
      match rest with
      | '}' :: rest => return ((least, none), rest)
      | _ => none
  | _ => none

/-- The value of a hexadecimal digit. -/
def hexDigit? (c : Char) : Option Nat :=
  if c.isDigit then some (c.toNat - '0'.toNat)
  else if 'a' ≤ c ∧ c ≤ 'f' then some (c.toNat - 'a'.toNat + 10)
  else if 'A' ≤ c ∧ c ≤ 'F' then some (c.toNat - 'A'.toNat + 10)
  else none

/-- The character of a code point. -/
def charOf? (n : Nat) : Option Char := if n.isValidChar then some (Char.ofNat n) else none

/-- The character of a code point in hexadecimal digits. -/
def hexChar? (digits : List Char) : Option Char :=
  if digits.isEmpty then none
  else (digits.foldlM (fun n c => (hexDigit? c).map (n * 16 + ·)) 0).bind charOf?

/-- Reads a code point: digits in braces, or just `length` digits. -/
def hexEscape (length : Nat) : List Char → Option (Char × List Char)
  | '{' :: text =>
    match text.span (· != '}') with
    | (digits, _ :: rest) => if digits.length ≤ 8 then (hexChar? digits).map (·, rest) else none
    | (_, []) => none
  | text =>
    if text.length < length then none
    else (hexChar? (text.take length)).map (·, text.drop length)

/-- Whether a name of a group may go on with the character. -/
def isNameChar (engine : Engine) (c : Char) : Bool :=
  match engine with
  | .linear =>
    c == '_' || c == '.' || c == '[' || c == ']' || Text.isLetterOrNumber c
  | .backtracking => c == '_' || Text.isLetterOrNumber c

/-- Whether a name of a group may start with the character. -/
def isNameStart (engine : Engine) (c : Char) : Bool :=
  match engine with
  | .linear => c == '_' || Text.isLetter c
  | .backtracking => isNameChar engine c

/-- Reads a name up to the character that closes it. -/
def name (engine : Engine) (close : Char) (text : List Char) : Option (String × List Char) :=
  match text.span (· != close) with
  | (c :: cs, _ :: rest) =>
    if isNameStart engine c && cs.all (isNameChar engine) then some (String.ofList (c :: cs), rest)
    else none
  | _ => none

/-- Reads a new name of a group; the linear engine wants every name once. -/
def newName (engine : Engine) (cur : Cursor) (text : List Char) : Option Cursor := do
  let (n, rest) ← name engine '>' text
  if engine = .linear && (cur.names.lookup n).isSome then none
  else some { cur with rest, names := (n, cur.groups + 1) :: cur.names }

/-- Sets or clears the flag of a letter. -/
def setFlag (engine : Engine) (flags : Flags) (value : Bool) : Char → Option Flags
  | 'i' => some { flags with caseless := value }
  | 'm' => some { flags with multiline := value }
  | 's' => some { flags with dotAll := value }
  | 'R' => if engine = .linear then some { flags with returns := value } else none
  | 'U' => some { flags with ungreedy := value }
  | 'x' => some { flags with spaced := value }
  | 'u' => if value then some flags else none
  | _ => none

/-- Reads letters of flags up to the character that ends them.  A minus sign, at most one and not
the last, turns to clearing; the linear engine wants every letter once. -/
def flagLetters (engine : Engine) (seen : List Char) (value : Bool) (flags : Flags) :
    List Char → Option (Flags × Char × List Char)
  | [] => none
  | c :: rest =>
    if c = ')' ∨ c = ':' then
      if !value && seen.head? == some '-' && (engine = .linear || seen.length == 1) then none
      else if c = ')' && seen.isEmpty then none
      else some (flags, c, rest)
    else if c = '-' then
      if value then flagLetters engine (c :: seen) false flags rest else none
    else if engine = .linear && seen.contains c then none
    else do
      let flags ← setFlag engine flags value c
      flagLetters engine (c :: seen) value flags rest

end Banknote.Pattern.Reader
