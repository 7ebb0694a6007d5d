import Banknote.Pattern.Expr
import Banknote.Pattern.Reader.CharSet

/-!
# Reading patterns

`readPattern` reads the text of a pattern for one of the two engines.  The linear engine's dialect
has characters, sets, assertions, groups, flags and repeats.  The backtracking engine's dialect adds
look-around, references, conditions, atomic groups, possessive repeats, `\K` and `\G`; in it a brace
that starts no counts is an ordinary character, and assertions cannot be repeated.

Left out, and so refused: the scripts and properties beyond those of `Property`, patterns over bytes
(`(?-u)`), and references that count groups from a name or ahead.  The limits on the depth of groups
and on the size of a pattern are those of `maxDepth` and `Expr.maxSize`; an engine may measure the
size of what it compiles otherwise.  A reference inside its own group means what the group matched
in an earlier round.
-/

namespace Banknote.Pattern.Reader

/-- The greatest depth of groups in groups. -/
def maxDepth : Engine → Nat
  | .linear => 250
  | .backtracking => 63

/-- Reads a quantifier: its counts, and whether it has braces. -/
def quantifier (engine : Engine) (flags : Flags) :
    List Char → Option ((Nat × Option Nat) × List Char)
  | '?' :: rest => some ((0, some 1), rest)
  | '*' :: rest => some ((0, none), rest)
  | '+' :: rest => some ((1, none), rest)
  | '{' :: rest => counts engine flags rest
  | _ => none

/-- Whether a text starts with a quantifier, so that something must come before it. -/
def startsQuantifier (engine : Engine) : List Char → Bool
  | '?' :: _ | '*' :: _ | '+' :: _ => true
  | '{' :: _ => engine == .linear
  | _ => false

/-- Whether the backtracking engine repeats an expression. -/
def isRepeatable : Expr → Bool
  | .empty | .assertion _ | .ahead _ _ | .behind _ _ => false
  | _ => true

/-- Reads the marks that follow a quantifier: `?` swaps greedy and lazy, and for the backtracking
engine `+` forbids to go back into the repeat. -/
def marked (engine : Engine) (flags : Flags) (body : Expr) (least : Nat) (most : Option Nat)
    (text : List Char) : Expr × List Char :=
  let (lazy, text) := match text with
    | '?' :: rest => (true, rest)
    | text => (false, text)
  let e := Expr.times body least most (lazy == flags.ungreedy)
  match engine, text with
  | .backtracking, '+' :: rest => (.atomic e, rest)
  | _, text => (e, text)

/-- Reads the quantifiers of an expression.  The linear engine takes any number of them, the other
one at most one. -/
def quantified (engine : Engine) (flags : Flags) : Nat → Expr → List Char →
    Option (Expr × List Char)
  | 0, _, _ => none
  | fuel + 1, e, text => do
    let text ← skip engine flags text
    match quantifier engine flags text with
    | none =>
      if engine = .linear && startsQuantifier engine text then none else return (e, text)
    | some ((least, most), rest) =>
      if engine = .linear then
        let (e, rest) := marked engine flags e least most (← skip engine flags rest)
        quantified engine flags fuel e rest
      else if isRepeatable e then
        return marked engine flags e least most (← skip engine flags rest)
      else none

/-- A character as an expression. -/
def charExpr (flags : Flags) (c : Char) : Expr :=
  .chars (if flags.caseless then .folded c else .single c)

/-- The assertion of a letter after a backslash. -/
def escapedAssertion? : Char → Option Assertion
  | 'A' => some .textStart
  | 'z' => some .textEnd
  | 'b' => some .wordBoundary
  | 'B' => some .notWordBoundary
  | '<' => some .wordStart
  | '>' => some .wordEnd
  | _ => none

/-- The assertion of a name in the braces after `\b`. -/
def namedBoundary? : String → Option Assertion
  | "start" => some .wordStart
  | "end" => some .wordEnd
  | "start-half" => some .wordStartHalf
  | "end-half" => some .wordEndHalf
  | _ => none

/-- Reads letters and hyphens, with the blanks and notes behind each. -/
def boundaryLetters (flags : Flags) : Nat → List Char → Option (List Char × List Char)
  | fuel + 1, c :: rest =>
    if c.isAlpha || c = '-' then do
      let (letters, rest) ← boundaryLetters flags fuel (← skip .linear flags rest)
      return (c :: letters, rest)
    else some ([], c :: rest)
  | _, text => some ([], text)

/-- Reads the name in braces that may follow `\b`.  What starts with no letter and no hyphen is left
to be read as the counts of a repeat. -/
def boundary (flags : Flags) (text : List Char) : Option (Assertion × List Char) :=
  match text with
  | '{' :: rest => do
    let (letters, rest) ← boundaryLetters flags (rest.length + 1) (← skip .linear flags rest)
    match letters, rest with
    | [], _ => return (.wordBoundary, text)
    | _, '}' :: rest => return (← namedBoundary? (String.ofList letters), rest)
    | _, _ => none
  | _ => some (.wordBoundary, text)

/-- A reference to a group, which may be opened later.  The whole match is no group. -/
def reference (index : Nat) : Option Expr := if index = 0 then none else some (.backref index)

/-- Reads a reference by name up to the character that closes it.  A name may be a number. -/
def namedReference (close : Char) (cur : Cursor) (text : List Char) : Option (Expr × Cursor) := do
  let (n, rest) ← name .backtracking close text
  let index ← match cur.names.lookup n with
    | some index => some index
    | none =>
      match number n.toList with
      | some (index, []) => some index
      | _ => none
  return (← reference index, { cur with rest })

/-- Reads a reference that counts the groups back from the one that was opened last, up to the
character that closes it. -/
def relativeReference (close : Char) (cur : Cursor) (text : List Char) :
    Option (Expr × Cursor) := do
  let (back, rest) ← number text
  match rest with
  | c :: rest =>
    if c = close && 0 < back && back ≤ cur.groups then
      return (.backref (cur.groups + 1 - back), { cur with rest })
    else none
  | [] => none

/-- The character that closes a name in a reference, given the one that opens it: an angle or an
apostrophe. -/
def closingOf? (c : Char) : Option Char :=
  if c = '<' then some '>' else if c.toNat = 39 then some c else none

/-- Reads a reference by name, by number or relative to its place, from the character that opens
it. -/
def delimitedReference (cur : Cursor) : List Char → Option (Expr × Cursor)
  | c :: '-' :: rest => do relativeReference (← closingOf? c) cur rest
  | c :: rest => do namedReference (← closingOf? c) cur rest
  | [] => none

/-- What the backtracking engine alone knows after a backslash. -/
def backtrackingEscape (cur : Cursor) : List Char → Option (Expr × Cursor)
  | 'K' :: rest => some (.keep, { cur with rest })
  | 'G' :: rest => some (.searchStart, { cur with rest })
  | 'Z' :: rest =>
    let lastLine := Expr.concat
      [.times (.chars (.single '\n')) 0 none true, .assertion .textEnd]
    some (.ahead false lastLine, { cur with rest })
  | 'k' :: rest => delimitedReference cur rest
  | text =>
    match number text with
    | some (index, rest) =>
      (reference index).map fun e => (e, { cur with rest, numbered := true })
    | none => none

/-- Reads what follows a backslash outside brackets. -/
def escapeExpr (engine : Engine) (flags : Flags) (cur : Cursor) (text : List Char) :
    Option (Expr × Cursor) :=
  match text with
  | [] => none
  | c :: rest =>
    match escapedAssertion? c with
    | some .wordBoundary =>
      if engine = .linear then
        (boundary flags rest).map fun (a, rest) => (.assertion a, { cur with rest })
      else some (.assertion .wordBoundary, { cur with rest })
    | some a => some (.assertion a, { cur with rest })
    | none =>
      match (if engine = .backtracking then backtrackingEscape cur text else none) with
      | some result => some result
      | none =>
        match escape engine flags text with
        | some (.char c, rest) => some (charExpr flags c, { cur with rest })
        | some (.set s, rest) => some (.chars s, { cur with rest })
        | none => none

/-- The characters that a point takes. -/
def pointSet (flags : Flags) : CharSet :=
  if flags.dotAll then .any else if flags.returns then .notLineBreak else .notLineFeed

/-- The assertion of `^`. -/
def startAssertion (flags : Flags) : Assertion :=
  if !flags.multiline then .textStart else if flags.returns then .returnStart else .lineStart

/-- The assertion of `$`. -/
def endAssertion (flags : Flags) : Assertion :=
  if !flags.multiline then .textEnd else if flags.returns then .returnEnd else .lineEnd

/-- Reads one character, set, assertion or reference. -/
def atom (engine : Engine) (flags : Flags) (cur : Cursor) : Option (Expr × Cursor) :=
  match cur.rest with
  | [] => none
  | '.' :: rest =>
    some (.chars (pointSet flags), { cur with rest })
  | '^' :: rest =>
    some (.assertion (startAssertion flags), { cur with rest })
  | '$' :: rest =>
    some (.assertion (endAssertion flags), { cur with rest })
  | '\\' :: rest => escapeExpr engine flags cur rest
  | '[' :: rest =>
    (bracket engine flags (2 * rest.length + 2) rest).map fun (s, rest) =>
      (.chars s, { cur with rest })
  | c :: rest => some (charExpr flags c, { cur with rest })

/-- What an opening parenthesis opens. -/
inductive Opening where
  /-- A group with a number. -/
  | capture (cur : Cursor)
  /-- A group without a number, under flags of its own. -/
  | plain (flags : Flags) (cur : Cursor)
  /-- A group that an expression is made of. -/
  | wrap (make : Expr → Expr) (cur : Cursor)
  /-- No group: flags for what follows. -/
  | flags (flags : Flags) (cur : Cursor)
  /-- No group: an expression. -/
  | expr (e : Expr) (cur : Cursor)
  /-- A condition in parentheses, and what depends on it. -/
  | conditional (cur : Cursor)

/-- Reads what follows the question mark of an opening parenthesis. -/
def question (engine : Engine) (flags : Flags) (cur : Cursor) (text : List Char) :
    Option Opening :=
  match engine, text with
  | .backtracking, '=' :: rest => some (.wrap (.ahead false) { cur with rest })
  | .backtracking, '!' :: rest => some (.wrap (.ahead true) { cur with rest })
  | .backtracking, '<' :: '=' :: rest => some (.wrap (.behind false) { cur with rest })
  | .backtracking, '<' :: '!' :: rest => some (.wrap (.behind true) { cur with rest })
  | .backtracking, '>' :: rest => some (.wrap .atomic { cur with rest })
  | .backtracking, '(' :: rest => some (.conditional { cur with rest })
  | .backtracking, 'P' :: '=' :: rest =>
    (namedReference ')' cur rest).map fun (e, cur) => .expr e cur
  | _, 'P' :: '<' :: rest => (newName engine cur rest).map .capture
  | _, '<' :: rest => (newName engine cur rest).map .capture
  | _, text =>
    match flagLetters engine [] true flags text with
    | some (flags, ')', rest) => some (.flags flags { cur with rest })
    | some (flags, _, rest) => some (.plain flags { cur with rest })
    | none => none

/-- Reads what an opening parenthesis opens. -/
def opening (engine : Engine) (flags : Flags) (cur : Cursor) (text : List Char) : Option Opening :=
  match text with
  | '?' :: text => question engine flags cur text
  | text => some (.capture { cur with rest := text })

/-- Reads a closing parenthesis. -/
def closing (cur : Cursor) : Option Cursor :=
  match cur.rest with
  | ')' :: rest => some { cur with rest }
  | _ => none

/-- Reads a condition that is the number or the name of a group; anything else is left to be read as
branches. -/
def groupCondition (cur : Cursor) : Option (Option (Expr × Cursor)) :=
  match cur.rest with
  | c :: rest =>
    if c.isDigit then do
      let (index, rest) ← number (c :: rest)
      return some (← reference index, { cur with rest, numbered := true })
    else if (closingOf? c).isSome then (delimitedReference cur (c :: rest)).map some
    else some none
  | [] => some none

/-- What is asked by a condition: of a reference, whether its group has been entered.  That is not
asked inside the group, and elsewhere the group has been left again and so has matched. -/
def asked (enclosing : List Nat) : Expr → Expr
  | .backref index => if enclosing.contains index then .empty else .groupSet index
  | e => e

/-- What depends on a condition: the first branch if it holds, the others if not. -/
def consequences : Expr → Expr × Expr
  | .alternatives (yes :: no) => (yes, .choice no)
  | e => (e, .empty)

/-- A condition with what depends on it; a condition alone if nothing does. -/
def conditionalExpr (condition body : Expr) : Expr :=
  match consequences body with
  | (.empty, .empty) => condition
  | (yes, no) => .conditional condition yes no

mutual

/-- Reads branches up to the end of their group. -/
def branches (engine : Engine) : Nat → Nat → Flags → List Expr → Cursor → Option (Expr × Cursor)
  | 0, _, _, _, _ => none
  | fuel + 1, depth, flags, done, cur => do
    let (e, flags, cur) ← parts engine fuel depth flags [] cur
    match cur.rest with
    | '|' :: rest => branches engine fuel depth flags (e :: done) { cur with rest }
    | _ =>
      if engine = .backtracking && done.isEmpty && cur.numbered && !cur.names.isEmpty then none
      else return (.choice (e :: done).reverse, cur)
termination_by structural fuel => fuel

/-- Reads the parts of a branch; the flags at its end hold for the next one. -/
def parts (engine : Engine) :
    Nat → Nat → Flags → List Expr → Cursor → Option (Expr × Flags × Cursor)
  | 0, _, _, _, _ => none
  | fuel + 1, depth, flags, done, cur => do
    let text ← skip engine flags cur.rest
    if startsQuantifier engine text then none
    else match text with
      | [] | '|' :: _ | ')' :: _ => return (.seq done.reverse, flags, { cur with rest := text })
      | '(' :: text =>
        match ← opening engine flags cur text with
        | .flags flags cur => parts engine fuel depth flags done cur
        | .expr e cur => do
          let (e, rest) ← quantified engine flags (cur.rest.length + 1) e cur.rest
          parts engine fuel depth flags (e :: done) { cur with rest }
        | .conditional cur => do
          let (e, cur) ← conditional engine fuel depth flags cur
          let (e, rest) ← quantified engine flags (cur.rest.length + 1) e cur.rest
          parts engine fuel depth flags (e :: done) { cur with rest }
        | .plain inner cur => do
          let (e, cur) ← enclosed engine fuel depth inner cur
          let (e, rest) ← quantified engine flags (cur.rest.length + 1) e cur.rest
          parts engine fuel depth flags (e :: done) { cur with rest }
        | .wrap make cur => do
          let (e, cur) ← enclosed engine fuel depth flags cur
          let (e, rest) ← quantified engine flags (cur.rest.length + 1) (make e) cur.rest
          parts engine fuel depth flags (e :: done) { cur with rest }
        | .capture cur => do
          let index := cur.groups + 1
          let inner := { cur with groups := index, enclosing := index :: cur.enclosing }
          let (e, after) ← enclosed engine fuel depth flags inner
          let cur := { after with enclosing := cur.enclosing }
          let (e, rest) ←
            quantified engine flags (cur.rest.length + 1) (.group index e) cur.rest
          parts engine fuel depth flags (e :: done) { cur with rest }
      | text => do
        let (e, cur) ← atom engine flags { cur with rest := text }
        let (e, rest) ← quantified engine flags (cur.rest.length + 1) e cur.rest
        parts engine fuel depth flags (e :: done) { cur with rest }
termination_by structural fuel => fuel

/-- Reads the branches of a group and its closing parenthesis. -/
def enclosed (engine : Engine) : Nat → Nat → Flags → Cursor → Option (Expr × Cursor)
  | 0, _, _, _ => none
  | fuel + 1, depth, flags, cur =>
    if depth = 0 then none
    else do
      let (e, cur) ← branches engine fuel (depth - 1) flags [] cur
      return (e, ← closing cur)
termination_by structural fuel => fuel

/-- Reads a condition. -/
def condition (engine : Engine) : Nat → Nat → Flags → Cursor → Option (Expr × Cursor)
  | 0, _, _, _ => none
  | fuel + 1, depth, flags, cur =>
    match groupCondition cur with
    | none => none
    | some (some result) => some result
    | some none => branches engine fuel depth flags [] cur
termination_by structural fuel => fuel

/-- Reads a condition with its closing parenthesis, what depends on it and the closing parenthesis
of the whole.  Nothing at all may depend on a reference only. -/
def conditional (engine : Engine) : Nat → Nat → Flags → Cursor → Option (Expr × Cursor)
  | 0, _, _, _ => none
  | fuel + 1, depth, flags, cur =>
    if depth = 0 then none
    else do
      let (condition, cur) ← condition engine fuel (depth - 1) flags cur
      let cur ← closing cur
      let (body, after) ← branches engine fuel (depth - 1) flags [] cur
      if after.rest.length = cur.rest.length && !condition.isBackref then none
      else return (conditionalExpr (asked cur.enclosing condition) body, ← closing after)
termination_by structural fuel => fuel

end

/-- A pattern that was read. -/
structure Reading where
  /-- The pattern as a tree. -/
  expr : Expr
  /-- The number of its groups. -/
  groups : Nat
  deriving Inhabited

/-- Reads a pattern. -/
def readPattern (engine : Engine) (text : List Char) : Option Reading := do
  let (expr, cur) ← branches engine (4 * text.length + 4) (maxDepth engine) {} [] { rest := text }
  if cur.rest.isEmpty && expr.looksBehindFixed && expr.size ≤ Expr.maxSize &&
      expr.references.all (· ≤ cur.groups) then
    return ⟨expr, cur.groups⟩
  else none

end Banknote.Pattern.Reader
