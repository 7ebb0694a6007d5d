import Banknote.Pattern.CharSet

/-!
# Patterns as trees

An `Expr` is a pattern once it has been read: flags are resolved, groups are numbered and references
point to numbers.

`width?` is the number of characters that every match of an expression has, if there is such a
number.  `isPlain` holds of the expressions that can be matched in linear time, `isSelfContained` of
those in which nothing besides is a group that is referred to.
-/

namespace Banknote.Pattern

/-- A condition on a place in a text. -/
inductive Assertion where
  /-- The place is the start of the text. -/
  | textStart
  /-- The place is the end of the text. -/
  | textEnd
  /-- A line starts at the place. -/
  | lineStart
  /-- A line ends at the place. -/
  | lineEnd
  /-- A line starts at the place, where lines also end with a carriage return. -/
  | returnStart
  /-- A line ends at the place, where lines also end with a carriage return. -/
  | returnEnd
  /-- Just one of the neighbours of the place is a word character. -/
  | wordBoundary
  /-- Both neighbours of the place are word characters, or neither is. -/
  | notWordBoundary
  /-- A word starts at the place. -/
  | wordStart
  /-- A word ends at the place. -/
  | wordEnd
  /-- No word character comes before the place. -/
  | wordStartHalf
  /-- No word character comes behind the place. -/
  | wordEndHalf
  deriving DecidableEq, Repr, Inhabited

/-- Whether an assertion looks at word characters. -/
def Assertion.readsWords : Assertion → Bool
  | wordBoundary | notWordBoundary | wordStart | wordEnd | wordStartHalf | wordEndHalf => true
  | textStart | textEnd | lineStart | lineEnd | returnStart | returnEnd => false

/-- A pattern. -/
inductive Expr where
  /-- Matches nothing at all, anywhere. -/
  | empty
  /-- One character of a set. -/
  | chars (set : CharSet)
  /-- A condition on the place. -/
  | assertion (a : Assertion)
  /-- One after the other. -/
  | concat (parts : List Expr)
  /-- One or another, the earlier ones first. -/
  | alternatives (branches : List Expr)
  /-- From `least` to `most` times, as often as possible if it is greedy. -/
  | times (body : Expr) (least : Nat) (most : Option Nat) (greedy : Bool)
  /-- A numbered group. -/
  | group (index : Nat) (body : Expr)
  /-- A look at what comes next. -/
  | ahead (negative : Bool) (body : Expr)
  /-- A look at what came before. -/
  | behind (negative : Bool) (body : Expr)
  /-- What a group matched. -/
  | backref (index : Nat)
  /-- A group that is matched in one way only. -/
  | atomic (body : Expr)
  /-- Moves the reported start of the match to the place. -/
  | keep
  /-- The place is not beyond the one where the search started. -/
  | searchStart
  /-- A group has matched. -/
  | groupSet (index : Nat)
  /-- A condition and what follows it, or else what is matched in place of both. -/
  | conditional (condition yes no : Expr)
  deriving Inhabited

namespace Expr

/-- The sequence of some parts; a single part stands for itself. -/
def seq : List Expr → Expr
  | [] => empty
  | [e] => e
  | parts => concat parts

/-- A choice of some branches; a single branch stands for itself. -/
def choice : List Expr → Expr
  | [e] => e
  | branches => alternatives branches

/-- Whether an expression is a reference. -/
def isBackref : Expr → Bool
  | backref _ => true
  | _ => false

/-- The one width of several widths. -/
def commonWidth : List (Option Nat) → Option Nat
  | [] => none
  | [w] => w
  | w :: rest => if commonWidth rest = w then w else none

mutual

/-- The number of characters that every match has. -/
def width? : Expr → Option Nat
  | empty | assertion _ | ahead _ _ | behind _ _ | keep | searchStart | groupSet _ => some 0
  | chars _ => some 1
  | concat parts => (widths parts).foldr (fun w total => return (← w) + (← total)) (some 0)
  | alternatives branches => commonWidth (widths branches)
  | times body least most _ => if most = some least then body.width?.map (· * least) else none
  | group _ body => body.width?
  | backref _ => none
  | atomic body => body.width?
  | conditional condition yes no =>
    match condition.width?, yes.width?, no.width? with
    | some c, some y, some n => if c + y = n then some n else none
    | _, _, _ => none

/-- The widths of several expressions. -/
def widths : List Expr → List (Option Nat)
  | [] => []
  | e :: rest => e.width? :: widths rest

end

mutual

/-- Whether the expression does without look-around, references, atomic groups, conditions, moved
starts, the start of the search and word boundaries. -/
def isPlain : Expr → Bool
  | empty | chars _ => true
  | assertion a => !a.readsWords
  | concat parts => allPlain parts
  | alternatives branches => allPlain branches
  | times body _ _ _ => body.isPlain
  | group _ body => body.isPlain
  | ahead _ _ | behind _ _ | backref _ | atomic _ | keep | searchStart | groupSet _
  | conditional _ _ _ => false

/-- Whether several expressions are plain. -/
def allPlain : List Expr → Bool
  | [] => true
  | e :: rest => e.isPlain && allPlain rest

end

mutual

/-- The groups that an expression refers to or asks for. -/
def references : Expr → List Nat
  | empty | chars _ | assertion _ | keep | searchStart => []
  | concat parts => allReferences parts
  | alternatives branches => allReferences branches
  | times body _ _ _ | group _ body | ahead _ body | behind _ body | atomic body => body.references
  | backref index | groupSet index => [index]
  | conditional condition yes no => condition.references ++ (yes.references ++ no.references)

/-- The groups that several expressions refer to. -/
def allReferences : List Expr → List Nat
  | [] => []
  | e :: rest => e.references ++ allReferences rest

end

mutual

/-- Whether the expression is plain and sets none of the groups that are referred to. -/
def isSelfContained (referenced : List Nat) : Expr → Bool
  | empty | chars _ => true
  | assertion a => !a.readsWords
  | concat parts => allSelfContained referenced parts
  | alternatives branches => allSelfContained referenced branches
  | times body _ _ _ => body.isSelfContained referenced
  | group index body => !referenced.contains index && body.isSelfContained referenced
  | ahead _ _ | behind _ _ | backref _ | atomic _ | keep | searchStart | groupSet _
  | conditional _ _ _ => false

/-- Whether several expressions are plain and set none of the groups that are referred to. -/
def allSelfContained (referenced : List Nat) : List Expr → Bool
  | [] => true
  | e :: rest => e.isSelfContained referenced && allSelfContained referenced rest

end

mutual

/-- Whether the expression can match without a character. -/
def isNullable : Expr → Bool
  | empty | assertion _ | ahead _ _ | behind _ _ | backref _ | keep | searchStart | groupSet _ => true
  | chars _ => false
  | concat parts => allNullable parts
  | alternatives branches => anyNullable branches
  | times body least _ _ => least == 0 || body.isNullable
  | group _ body => body.isNullable
  | atomic body => body.isNullable
  | conditional condition yes no => condition.isNullable && yes.isNullable || no.isNullable

/-- Whether several expressions can all match without a character. -/
def allNullable : List Expr → Bool
  | [] => true
  | e :: rest => e.isNullable && allNullable rest

/-- Whether one of several expressions can match without a character. -/
def anyNullable : List Expr → Bool
  | [] => false
  | e :: rest => e.isNullable || anyNullable rest

end

mutual

/-- Whether every look-behind has a width: its body has one, or each branch of its body has. -/
def looksBehindFixed : Expr → Bool
  | behind _ (alternatives branches) =>
    (widths branches).all Option.isSome && allLookBehindFixed branches
  | behind _ body => body.width?.isSome && body.looksBehindFixed
  | concat parts => allLookBehindFixed parts
  | alternatives branches => allLookBehindFixed branches
  | times body _ _ _ | group _ body | ahead _ body | atomic body => body.looksBehindFixed
  | conditional condition yes no =>
    condition.looksBehindFixed && (yes.looksBehindFixed && no.looksBehindFixed)
  | _ => true

/-- Whether every look-behind in several expressions has a width. -/
def allLookBehindFixed : List Expr → Bool
  | [] => true
  | e :: rest => e.looksBehindFixed && allLookBehindFixed rest

end

/-- The most parts that repeats may unfold to. -/
def maxSize : Nat := 1000000

mutual

/-- The number of parts when repeats are unfolded. -/
def size : Expr → Nat
  | concat parts => sizes parts + 1
  | alternatives branches => sizes branches + 1
  | times body least most _ => (most.getD (least + 1)) * body.size + 1
  | group _ body | ahead _ body | behind _ body | atomic body => body.size + 1
  | conditional condition yes no => condition.size + yes.size + no.size + 1
  | _ => 1

/-- The numbers of parts of several expressions. -/
def sizes : List Expr → Nat
  | [] => 0
  | e :: rest => e.size + sizes rest

end

end Expr

end Banknote.Pattern
