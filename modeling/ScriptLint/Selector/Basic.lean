import ScriptLint.Number.Binary64
import ScriptLint.Text.Bytes

/-!
Selectors: patterns over the nodes of a document. A compound asks for a type name and for
predicates over attribute paths; combinators relate a compound to the one before it, either as the
parent or as some node above. The node that a selector selects is the one of its last compound.
-/
namespace ScriptLint

inductive Combinator where
  /-- Written `A > B`. -/
  | child
  /-- Written `A B`. -/
  | descendant
  deriving DecidableEq, Repr

inductive Operator where
  | eq | ne | gt | lt | ge | le
  deriving DecidableEq, Repr

inductive Literal where
  | text (s : Text)
  | number (x : Binary64)
  | flag (b : Bool)
  | null
  deriving DecidableEq, Repr

/-- The path leads somewhere and, if there is a test, to a value that passes it. -/
structure Predicate where
  path : List String
  test : Option (Operator × Literal)
  deriving DecidableEq, Repr

structure Compound where
  /-- The type name asked for, if any. -/
  kind : Option String
  predicates : List Predicate
  deriving DecidableEq, Repr

structure Selector where
  pattern : String
  subject : Compound
  /-- What is asked of the nodes above, nearest first: each compound with the combinator that
  leads to it from below. -/
  context : List (Combinator × Compound)
  deriving DecidableEq, Repr

namespace Selector

/-- All compounds in the order in which they are written. -/
def compounds (s : Selector) : List Compound := (s.context.map (·.2)).reverse ++ [s.subject]

/-- The combinators between them, in order. -/
def combinators (s : Selector) : List Combinator := (s.context.map (·.1)).reverse

theorem length_compounds (s : Selector) : s.compounds.length = s.combinators.length + 1 := by
  simp [compounds, combinators]

/-- What a pattern lacks at the place where reading it stops. -/
inductive Expected where
  | combinator | compound | closingBracket | attributeName | operator | closingQuote | value
  deriving DecidableEq, Repr

def Expected.message : Expected → String
  | .combinator => "expected a combinator"
  | .compound => "expected a node type, `*` or `[`"
  | .closingBracket => "expected `]`"
  | .attributeName => "expected an attribute name"
  | .operator => "expected an operator"
  | .closingQuote => "unterminated string"
  | .value => "expected a value"

end Selector

inductive SelectorError where
  | malformed (pattern : String) (position : Nat) (expected : Selector.Expected)
  | unknownKind (pattern kind : String)
  deriving DecidableEq, Repr

def SelectorError.message : SelectorError → String
  | .malformed pattern position expected =>
    "malformed selector `" ++ pattern ++ "` at offset " ++ toString position ++ ": "
      ++ expected.message
  | .unknownKind pattern kind =>
    "unknown node type `" ++ kind ++ "` in selector `" ++ pattern ++ "`"

end ScriptLint
