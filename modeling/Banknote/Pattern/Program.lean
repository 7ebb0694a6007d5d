import Banknote.Pattern.Node
import Banknote.Pattern.Reader.Expr

/-!
# Compiling patterns

`Expr.plain` unfolds an expression for linear matching, `Expr.tried` for backtracking.

The backtracking engine matches some plain parts as if they were atomic groups, since no second way
to match them can help: the parts at the two ends of a sequence that have a fixed width, and at the
end of a look's or atomic group's body whatever is plain.  A part that sets a group which is referred
to is left out, since a second way to match it may set the group to something else.
-/

namespace Banknote.Pattern

namespace Expr

/-- Counted repeats of a node, given how it is repeated without bound. -/
def repeated (p unbounded : Node) (greedy : Bool) (least : Nat) : Option Nat → Node
  | none => p.copies unbounded least
  | some most => if most ≤ least then
      match least with
      | 0 => .empty
      | n + 1 => p.copies p n
    else p.copies (p.atMost greedy (most - least)) least

mutual

/-- The node of an expression that is matched in linear time. -/
def plain : Expr → Node
  | empty => .empty
  | chars set => .chars set
  | assertion a => .assertion a
  | concat parts => plainSeq parts
  | alternatives branches => plainAlt branches
  | times body least most greedy =>
    let p := body.plain
    if body.isNullable && most.isNone then
      if least ≤ 1 then
        if least = 0 then .optional greedy (.plus greedy p) else .plus greedy p
      else p.copies (.plus greedy p) (least - 1)
    else repeated p (.star greedy p) greedy least most
  | group index body => .group index body.plain
  | ahead negative body => .look negative 0 body.plain
  | behind negative body => .look negative (body.width?.getD 0) body.plain
  | backref index => .backref index
  | atomic body => .atomic body.plain
  | keep => .keep
  | searchStart => .searchStart
  | groupSet index => .groupSet index
  | conditional condition yes no => .branch condition.plain yes.plain no.plain

/-- The sequence of the nodes of some expressions. -/
def plainSeq : List Expr → Node
  | [] => .empty
  | [e] => e.plain
  | e :: rest => .seq e.plain (plainSeq rest)

/-- The choice between the nodes of some expressions. -/
def plainAlt : List Expr → Node
  | [] => .empty
  | [e] => e.plain
  | e :: rest => .alt e.plain (plainAlt rest)

end

/-- Whether an expression is self-contained and has a fixed width. -/
def isSettled (referenced : List Nat) (e : Expr) : Bool :=
  e.isSelfContained referenced && e.width?.isSome

/-- Whether expressions may be matched in one way only at the end of a sequence. -/
def endsSettled (referenced : List Nat) (last : Bool) (parts : List Expr) : Bool :=
  parts.all fun e => if last then e.isSelfContained referenced else e.isSettled referenced

mutual

/-- The node of an expression that is matched with backtracking, in a pattern that refers to some
groups.  `last` tells that nothing follows it in the body of a look or an atomic group. -/
def tried (referenced : List Nat) (last : Bool) (e : Expr) : Node :=
  if last && e.isSelfContained referenced then .atomic e.plain
  else match e with
    | concat parts => triedSeq referenced last true parts
    | alternatives branches => triedAlt referenced last branches
    | times body least most greedy =>
      let p := body.tried referenced (last && least == 0 && most == some 1)
      repeated p (.star greedy p) greedy least most
    | group index body => .group index (body.tried referenced last)
    | ahead negative body => .look negative 0 (body.tried referenced true)
    | behind negative body =>
      match body with
      | alternatives branches => triedBehind referenced negative branches
      | body => .look negative (body.width?.getD 0) (body.tried referenced true)
    | atomic body => .atomic (body.tried referenced true)
    | conditional condition yes no =>
      .branch (condition.tried referenced last) (yes.tried referenced last)
        (no.tried referenced last)
    | e => e.plain

/-- The sequence of some expressions; `first` tells that only settled ones came before. -/
def triedSeq (referenced : List Nat) (last first : Bool) : List Expr → Node
  | [] => .empty
  | e :: rest =>
    if endsSettled referenced last (e :: rest) then .atomic (plainSeq (e :: rest))
    else if first && e.isSettled referenced then
      .seq (.atomic e.plain) (triedSeq referenced last true rest)
    else .seq (e.tried referenced false) (triedSeq referenced last false rest)

/-- The choice between some expressions. -/
def triedAlt (referenced : List Nat) (last : Bool) : List Expr → Node
  | [] => .empty
  | [e] => e.tried referenced last
  | e :: rest => .alt (e.tried referenced last) (triedAlt referenced last rest)

/-- Looks back over some branches, each as far as it is wide: at one of them, or negatively at all
of them. -/
def triedBehind (referenced : List Nat) (negative : Bool) : List Expr → Node
  | [] => .look (!negative) 0 .empty
  | e :: rest =>
    let first := Node.look negative (e.width?.getD 0) (e.tried referenced true)
    if negative then .seq first (triedBehind referenced negative rest)
    else .alt first (triedBehind referenced negative rest)

end

end Expr

/-- A compiled pattern. -/
structure Program where
  /-- What is matched. -/
  node : Node
  /-- The number of groups, the whole match among them. -/
  groups : Nat
  deriving DecidableEq, Repr, Inhabited

/-- Compiles the text of a pattern for an engine.  A plain pattern is matched in linear time by
either engine. -/
def Program.compile? (engine : Engine) (source : List Char) : Option Program :=
  (Reader.readPattern engine source).map fun reading =>
    { node :=
        if engine = .linear ∨ reading.expr.isPlain then reading.expr.plain
        else reading.expr.tried reading.expr.references false
      groups := reading.groups + 1 }

end Banknote.Pattern
