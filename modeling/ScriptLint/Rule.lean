import ScriptLint.Rule.MaxParams
import ScriptLint.Rule.Reexport
import ScriptLint.Rule.SingleLine
import ScriptLint.Rule.SingleUseType
import ScriptLint.Rule.TypesBeforeUse

/-!
The lint rules, each with its options. A rule names the nodes it looks at by selectors and says at
most one thing about a node.
-/
namespace ScriptLint

inductive Rule where
  | singleLine (options : SingleLine)
  | maxParams (options : MaxParams)
  | singleUseType (options : SingleUseType)
  | reexport
  | typesBeforeUse
  deriving DecidableEq, Repr

/-- How settled a rule is and what it is for. -/
inductive Category where
  | style | pedantic | nursery
  deriving DecidableEq, Repr

namespace Rule

def name : Rule → String
  | .singleLine _ => SingleLine.name
  | .maxParams _ => MaxParams.name
  | .singleUseType _ => SingleUseType.name
  | .reexport => Reexport.name
  | .typesBeforeUse => TypesBeforeUse.name

def category : Rule → Category
  | .singleLine _ | .reexport | .typesBeforeUse => .style
  | .maxParams _ => .pedantic
  | .singleUseType _ => .nursery

def selectors : Rule → List String
  | .singleLine _ => SingleLine.selectors
  | .maxParams options => options.selectors
  | .singleUseType _ => SingleUseType.selectors
  | .reexport => Reexport.selectors
  | .typesBeforeUse => TypesBeforeUse.selectors

def check (rule : Rule) (doc : Document) (id : NodeId) : Option Diagnostic :=
  match rule with
  | .singleLine options => options.check doc id
  | .maxParams options => options.check doc id
  | .singleUseType options => options.check doc id
  | .reexport => Reexport.check doc id
  | .typesBeforeUse => TypesBeforeUse.check doc id

/-- What the check of a node cuts out of the source, apart from the texts of nodes. -/
def cuts (rule : Rule) (doc : Document) (id : NodeId) : List Span :=
  match rule with
  | .singleLine options => options.cuts doc id
  | .typesBeforeUse => TypesBeforeUse.cuts doc id
  | .maxParams _ | .singleUseType _ | .reexport => []

/-- All rules with their default options, in the order in which they run. -/
def defaults : List Rule :=
  [.singleLine {}, .maxParams {}, .singleUseType {}, .reexport, .typesBeforeUse]

end Rule

end ScriptLint
