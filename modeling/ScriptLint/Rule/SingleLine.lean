import ScriptLint.Report.Diagnostic
import ScriptLint.Revision.Collapse
import ScriptLint.Revision.Relocate

/-!
The rule `prefer-single-line`: object literals, type literals and interface bodies that take
several lines and fit on one are written on one.
-/
namespace ScriptLint

structure SingleLine where
  /-- The longest line, in characters, that the rule may produce. -/
  maxLineLength : Option Nat := none
  deriving DecidableEq, Repr

namespace SingleLine

def name : String := "prefer-single-line"

def selectors : List String := ["ObjectExpression", "TSTypeLiteral", "TSInterfaceBody"]

/-- From the end of the indentation of its line to a node. -/
def before (doc : Document) (id : NodeId) : Span :=
  ⟨Text.lineStart doc.source (doc.span id).start + Text.width (doc.indentOf id),
    (doc.span id).start⟩

/-- Length in characters of the line that a node leaves when `collapsed` takes its place. -/
def lineLength (doc : Document) (id : NodeId) (collapsed : Text) : Nat :=
  (doc.indentOf id).length + (Text.slice doc.source (before doc id)).length + collapsed.length
    + (Text.slice doc.source (doc.lineBack (doc.span id).stop)).length

def fits (rule : SingleLine) (doc : Document) (id : NodeId) (collapsed : Text) : Bool :=
  match rule.maxLineLength with
  | some max => lineLength doc id collapsed ≤ max
  | none => true

def describe : NodeKind → String
  | .objectExpression => "object"
  | .typeLiteral => "type literal"
  | _ => "interface"

def check (rule : SingleLine) (doc : Document) (id : NodeId) : Option Diagnostic := do
  guard ((doc.text id).contains '\n')
  let collapsed ← doc.collapse? id
  guard (rule.fits doc id collapsed)
  let diagnostic := Diagnostic.ofTemplate name (doc.span id) "preferSingleLine"
    "This \x7b\x7bkind\x7d\x7d fits on a single line." [("kind", describe (doc.kind id))]
  some (diagnostic.withFix
    ((Fix.replace (doc.span id) collapsed).withMessage "Collapse onto one line"))

/-- What is cut out of the source to measure the line. Without a limit it is not measured. -/
def cuts (rule : SingleLine) (doc : Document) (id : NodeId) : List Span :=
  if rule.maxLineLength.isSome && (doc.text id).contains '\n' && (doc.collapse? id).isSome then
    doc.indentOfCuts id ++ [doc.frontCut (doc.span id).start, before doc id,
      doc.backCut (doc.span id).stop, doc.lineBack (doc.span id).stop]
  else []

end SingleLine

end ScriptLint
