import ScriptLint.Tree.Document

/-!
Tokens around and inside a span. Tokens stand in order and do not overlap, so the tokens before an
offset are found by bisection.
-/
namespace ScriptLint

inductive Direction where
  | before | after
  deriving DecidableEq, Repr

/-- Bisect between two positions: everything before `low` passes and nothing from `high` on. Every
step brings the two closer, so `high - low` steps are enough. -/
def bisect (tokens : Array Token) (test : Token → Bool) : (fuel low high : Nat) → Nat
  | 0, low, _ => low
  | fuel + 1, low, high =>
    if low < high then
      let middle := (low + high) / 2
      if tokens[middle]?.any test then bisect tokens test fuel (middle + 1) high
      else bisect tokens test fuel low middle
    else low

/-- The number of tokens that pass a test which holds up to some point and not after it. -/
def partitionPoint (tokens : Array Token) (test : Token → Bool) : Nat :=
  bisect tokens test tokens.size 0 tokens.size

namespace Document

/-- Tokens that follow a span, or those that precede it, nearest first. -/
def tokensAroundSpan (doc : Document) (span : Span) : Direction → List Token
  | .after => doc.tokens.toList.drop (partitionPoint doc.tokens fun t => t.span.start < span.stop)
  | .before =>
    (doc.tokens.toList.take (partitionPoint doc.tokens fun t => t.span.stop ≤ span.start)).reverse

def tokensAround (doc : Document) (id : NodeId) (direction : Direction) : List Token :=
  doc.tokensAroundSpan (doc.span id) direction

/-- The nearest token on a side of a node that is not skipped. -/
def findToken? (doc : Document) (id : NodeId) (direction : Direction) (skip : Token → Bool) :
    Option Token :=
  (doc.tokensAround id direction).find? fun t => !skip t

/-- Tokens that lie inside a span. -/
def tokensIn (doc : Document) (span : Span) : List Token :=
  let first := partitionPoint doc.tokens fun t => t.span.start < span.start
  let last := partitionPoint doc.tokens fun t => t.span.stop ≤ span.stop
  (doc.tokens.toList.take (max last first)).drop first

def commentsIn (doc : Document) (span : Span) : List Token :=
  (doc.tokensIn span).filter (·.isComment)

def hasComments (doc : Document) (id : NodeId) : Bool :=
  !(doc.commentsIn (doc.span id)).isEmpty

end Document

end ScriptLint
