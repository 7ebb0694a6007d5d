import Banknote.Json.Numeral

/-!
# JSON values and their text

A `Json` value keeps the members of an object in the order in which they are written.  `compact`
writes a value without any blank, `pretty` writes one item to a line, indented by two spaces.
-/

namespace Banknote

/-- A JSON value. -/
inductive Json where
  | null
  | bool (b : Bool)
  | num (n : Json.Numeral)
  | str (s : String)
  | arr (items : List Json)
  | obj (members : List (String × Json))
  deriving Inhabited

namespace Json

/-- The natural number `n`. -/
def nat (n : Nat) : Json := .num (.ofNat n)

/-- A binary number; an infinity has no numeral and becomes null. -/
def binary {f : BinaryFormat} (x : Binary f) : Json :=
  if x.isInfinite then .null else .num (.ofBinary x)

/-- A list of texts. -/
def strings (items : List String) : Json := .arr (items.map .str)

/-- The two hexadecimal digits of a number below 256. -/
def hexPair (n : Nat) : List Char := [Nat.digitChar (n / 16), Nat.digitChar (n % 16)]

/-- One character inside a string: quotes, backslashes and control characters are escaped. -/
def escape (c : Char) : List Char :=
  if c = '"' then ['\\', '"']
  else if c = '\\' then ['\\', '\\']
  else if c = '\n' then ['\\', 'n']
  else if c = '\r' then ['\\', 'r']
  else if c = '\t' then ['\\', 't']
  else if c = '\x08' then ['\\', 'b']
  else if c = '\x0c' then ['\\', 'f']
  else if c.toNat < 0x20 then ['\\', 'u', '0', '0'] ++ hexPair c.toNat
  else [c]

/-- A string with its quotes. -/
def quoted (s : String) : List Char := '"' :: s.toList.flatMap escape ++ ['"']

/-- A truth value's keyword. -/
def boolText (b : Bool) : List Char := if b then ['t', 'r', 'u', 'e'] else ['f', 'a', 'l', 's', 'e']

mutual

/-- The text of a value without blanks. -/
def compactText : Json → List Char
  | .null => ['n', 'u', 'l', 'l']
  | .bool b => boolText b
  | .num n => n.text
  | .str s => quoted s
  | .arr items => '[' :: compactItems items ++ [']']
  | .obj members => '{' :: compactMembers members ++ ['}']

/-- The items of an array, with commas between them. -/
def compactItems : List Json → List Char
  | [] => []
  | [j] => compactText j
  | j :: rest => compactText j ++ ',' :: compactItems rest

/-- The members of an object, with commas between them. -/
def compactMembers : List (String × Json) → List Char
  | [] => []
  | [(k, j)] => quoted k ++ ':' :: compactText j
  | (k, j) :: rest => quoted k ++ ':' :: compactText j ++ ',' :: compactMembers rest

end

/-- A line break and the indentation of a nesting level. -/
def newline (level : Nat) : List Char := '\n' :: List.replicate (2 * level) ' '

mutual

/-- The text of a value at a nesting level, one item to a line. -/
def prettyText (level : Nat) : Json → List Char
  | .null => ['n', 'u', 'l', 'l']
  | .bool b => boolText b
  | .num n => n.text
  | .str s => quoted s
  | .arr [] => ['[', ']']
  | .arr (j :: rest) =>
    '[' :: newline (level + 1) ++ prettyItems (level + 1) (j :: rest) ++ newline level ++ [']']
  | .obj [] => ['{', '}']
  | .obj (m :: rest) =>
    '{' :: newline (level + 1) ++ prettyMembers (level + 1) (m :: rest) ++ newline level ++ ['}']

/-- The items of an array, a comma and a line break between them. -/
def prettyItems (level : Nat) : List Json → List Char
  | [] => []
  | [j] => prettyText level j
  | j :: rest => prettyText level j ++ ',' :: newline level ++ prettyItems level rest

/-- The members of an object, a comma and a line break between them. -/
def prettyMembers (level : Nat) : List (String × Json) → List Char
  | [] => []
  | [(k, j)] => quoted k ++ [':', ' '] ++ prettyText level j
  | (k, j) :: rest =>
    quoted k ++ [':', ' '] ++ prettyText level j ++ ',' :: newline level ++ prettyMembers level rest

end

/-- The text of a value without blanks. -/
def compact (j : Json) : String := String.ofList (compactText j)

/-- The text of a value, one item to a line. -/
def pretty (j : Json) : String := String.ofList (prettyText 0 j)

end Json

end Banknote
