import Banknote.Pattern.Property
import Banknote.Pattern.Reader.Basic

/-!
# Reading sets of characters

Escapes that stand for a character or a set, and sets in brackets.  A bracket holds characters,
ranges, escapes, ASCII classes and further brackets, and may combine what it holds by intersection
(`&&`), difference (`--`) and symmetric difference (`~~`), from left to right.  Where case does not
count, a set first takes in what folds like its members and is complemented afterwards.
-/

namespace Banknote.Pattern.Reader

/-- What stands for one character: a character or a set. -/
inductive Member where
  | char (c : Char)
  | set (s : CharSet)

/-- The set of a member. -/
def Member.toSet : Member → CharSet
  | char c => .single c
  | set s => s

/-- Reads the name of a property: one letter, or what stands in braces. -/
def property (flags : Flags) (negative : Bool) (text : List Char) :
    Option (Member × List Char) := do
  let (name, rest) ← match text with
    | [] => none
    | '{' :: text =>
      match text.span (· != '}') with
      | (name, _ :: rest) => some (name, rest)
      | (_, []) => none
    | c :: rest => some ([c], rest)
  let set ← Property.ofName? name
  return (.set (.negated negative (.folding flags.caseless set)), rest)

/-- The named class of a letter after a backslash. -/
def escapedClass? (engine : Engine) : Char → Option CharSet
  | 'd' => some (.named .digit)
  | 'D' => some (.compl (.named .digit))
  | 's' => some (.named .blank)
  | 'S' => some (.compl (.named .blank))
  | 'w' => some (.named .wordChar)
  | 'W' => some (.compl (.named .wordChar))
  | 'h' => if engine = .backtracking then CharSet.ofAsciiName? "xdigit" else none
  | 'H' => if engine = .backtracking then (CharSet.ofAsciiName? "xdigit").map .compl else none
  | _ => none

/-- The character of a letter after a backslash. -/
def escapedChar? (engine : Engine) : Char → Option Char
  | 'a' => some '\x07'
  | 'f' => some '\x0c'
  | 'n' => some '\n'
  | 'r' => some '\r'
  | 't' => some '\t'
  | 'v' => some '\x0b'
  | 'e' => if engine = .backtracking then some '\x1b' else none
  | c =>
    if c.isAlphanum then none
    else match engine with
      | .linear => if c.toNat < 128 && c != '<' && c != '>' then some c else none
      | .backtracking => some c

/-- The number of digits of a code point after a letter. -/
def hexLength? : Char → Option Nat
  | 'x' => some 2
  | 'u' => some 4
  | 'U' => some 8
  | _ => none

/-- Reads what follows a backslash where a character or a set is meant. -/
def escape (engine : Engine) (flags : Flags) : List Char → Option (Member × List Char)
  | [] => none
  | c :: rest =>
    if c = 'p' ∨ c = 'P' then property flags (c == 'P') rest
    else match hexLength? c with
      | some length => (hexEscape length rest).map fun (c, rest) => (.char c, rest)
      | none =>
        match escapedClass? engine c with
        | some s => some (.set s, rest)
        | none => (escapedChar? engine c).map fun c => (.char c, rest)

/-- Passes over blanks and notes inside brackets, where only the linear engine knows them. -/
def skipInside (engine : Engine) (flags : Flags) (text : List Char) : List Char :=
  match engine with
  | .linear => (skip engine flags text).getD []
  | .backtracking => text

/-- Reads an ASCII class after its opening bracket. -/
def asciiClass (flags : Flags) : List Char → Option (CharSet × List Char)
  | ':' :: text =>
    let (negative, text) := match text with
      | '^' :: text => (true, text)
      | text => (false, text)
    match text.span (· != ':') with
    | (name, ':' :: ']' :: rest) =>
      (CharSet.ofAsciiName? (String.ofList name)).map fun set =>
        (.negated negative (.folding flags.caseless set), rest)
    | _ => none
  | _ => none

/-- Reads one member of a bracket. -/
def member (engine : Engine) (flags : Flags) : List Char → Option (Member × List Char)
  | [] => none
  | '\\' :: text => escape engine flags text
  | c :: rest => some (.char c, rest)

/-- Reads a member of a bracket or a range.  A hyphen in front of a closing bracket or of another
hyphen makes no range. -/
def rangeOrMember (engine : Engine) (flags : Flags) (text : List Char) :
    Option (CharSet × List Char) := do
  let (first, rest) ← member engine flags text
  match skipInside engine flags rest with
  | '-' :: after =>
    match skipInside engine flags after with
    | [] => none
    | ']' :: _ | '-' :: _ => return (first.toSet, '-' :: after)
    | after =>
      let (last, rest) ← member engine flags after
      match first, last with
      | .char a, .char b => if a ≤ b then return (.range a.toNat b.toNat, rest) else none
      | _, _ => none
  | rest => return (first.toSet, rest)

/-- How a bracket combines two sets. -/
inductive Combination where
  | inter | diff | symmDiff

/-- A combination that waits for its second set. -/
structure Waiting where
  /-- How the sets are combined. -/
  combination : Combination
  /-- The first set. -/
  first : CharSet

/-- The set of what was read since a combination, combined with what was read before. -/
def combine (flags : Flags) (set : CharSet) : Option Waiting → CharSet
  | none => set
  | some ⟨combination, first⟩ =>
    let a := CharSet.folding flags.caseless first
    let b := CharSet.folding flags.caseless set
    match combination with
    | .inter => .inter a b
    | .diff => .diff a b
    | .symmDiff => .symmDiff a b

/-- Reads what is special at the start of a bracket: hyphens stand for themselves there, and so does
a closing bracket that comes first. -/
def bracketStart (text : List Char) : CharSet × List Char :=
  match text with
  | ']' :: rest => (.single ']', rest)
  | text =>
    let rest := text.dropWhile (· == '-')
    (if rest.length < text.length then .single '-' else .empty, rest)

mutual

/-- Reads a set in brackets after the opening bracket. -/
def bracket (engine : Engine) (flags : Flags) : Nat → List Char → Option (CharSet × List Char)
  | 0, _ => none
  | fuel + 1, text => do
    let (negative, text) := match skipInside engine flags text with
      | '^' :: text => (true, text)
      | text => (false, text)
    let (set, text) := bracketStart (skipInside engine flags text)
    let (set, rest) ← bracketMembers engine flags fuel none set text
    return (.negated negative (.folding flags.caseless set), rest)

/-- Reads the members of a bracket up to its end. -/
def bracketMembers (engine : Engine) (flags : Flags) :
    Nat → Option Waiting → CharSet → List Char → Option (CharSet × List Char)
  | 0, _, _, _ => none
  | fuel + 1, waiting, set, text =>
    match skipInside engine flags text with
    | [] => none
    | ']' :: rest => some (combine flags set waiting, rest)
    | '[' :: rest =>
      match asciiClass flags rest with
      | some (s, rest) => bracketMembers engine flags fuel waiting (set.join s) rest
      | none => do
        let (s, rest) ← bracket engine flags fuel rest
        bracketMembers engine flags fuel waiting (set.join s) rest
    | '&' :: '&' :: rest =>
      bracketMembers engine flags fuel (some ⟨.inter, combine flags set waiting⟩) .empty rest
    | '-' :: '-' :: rest =>
      bracketMembers engine flags fuel (some ⟨.diff, combine flags set waiting⟩) .empty rest
    | '~' :: '~' :: rest =>
      bracketMembers engine flags fuel (some ⟨.symmDiff, combine flags set waiting⟩) .empty rest
    | text => do
      let (s, rest) ← rangeOrMember engine flags text
      bracketMembers engine flags fuel waiting (set.join s) rest

end

end Banknote.Pattern.Reader
