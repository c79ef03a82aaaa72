import ScriptLint.Report.Diagnostic
import ScriptLint.Tree.Document

/-!
The rule `max-params`: functions declare no more parameters than allowed. The count is made by the
selectors; a rest parameter does not count.
-/
namespace ScriptLint

structure MaxParams where
  /-- The largest number of parameters allowed. -/
  max : Nat := 3
  deriving DecidableEq, Repr

namespace MaxParams

def name : String := "max-params"

def functionTypes : List String :=
  ["FunctionDeclaration", "FunctionExpression", "ArrowFunctionExpression", "TSDeclareFunction"]

def selectors (rule : MaxParams) : List String :=
  functionTypes.map fun type => type ++ "[params.length>" ++ toString rule.max ++ "]"

/-- How a function is called in the message: by its name if it has one. -/
def describe (doc : Document) (id : NodeId) : String :=
  match doc.slotNode? id "id" with
  | some name => "Function '" ++ .ofList (doc.text name) ++ "'"
  | none => if doc.kind id = .arrowFunction then "Arrow function" else "Function"

def check (rule : MaxParams) (doc : Document) (id : NodeId) : Option Diagnostic := do
  let params := doc.slotNodes id "params"
  let first ← params.head?
  let last ← params.getLast?
  let place := (doc.slotNode? id "id").getD id
  let diagnostic := Diagnostic.ofTemplate name (doc.span place) "exceed"
    ("\x7b\x7bname\x7d\x7d has too many parameters (\x7b\x7bcount\x7d\x7d). "
      ++ "Maximum allowed is \x7b\x7bmax\x7d\x7d.")
    [("name", describe doc id), ("count", toString params.length), ("max", toString rule.max)]
  some ((diagnostic.withLabel ⟨(doc.span first).start, (doc.span last).stop⟩
    "parameters declared here").withHelp "Group related parameters into an options object.")

end MaxParams

end ScriptLint
