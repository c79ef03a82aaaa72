import ScriptLint.Report.Diagnostic
import ScriptLint.Revision.Relocate
import ScriptLint.Scope.Reference

/-!
The rule `types-before-use`: type aliases and interfaces at the top level stand above the first
statement that uses them. The fix moves the declaration there with its comments. Where the
declaration itself reads something declared in between, moving it would only turn the problem
round, and nothing is reported.
-/
namespace ScriptLint

/-- The first entry with the least key. -/
def leastBy? {α : Type} (key : α → Nat) : List α → Option α
  | [] => none
  | a :: rest =>
    match leastBy? key rest with
    | some b => if key b < key a then some b else some a
    | none => some a

namespace TypesBeforeUse

def name : String := "types-before-use"

def selectors : List String :=
  ["Program > TSTypeAliasDeclaration", "Program > TSInterfaceDeclaration"]

/-- The child of the root that the node belongs to. -/
def topLevelStatement? (doc : Document) (id : NodeId) : Option NodeId :=
  (doc.ancestors id).find? fun a => doc.parent a = some Document.root

/-- The first statement above a declaration that reads what it binds. -/
def firstUse? (doc : Document) (id : NodeId) (binding : Binding) : Option NodeId :=
  let statements := binding.references.filterMap fun r => topLevelStatement? doc r.identifier
  leastBy? (fun s => (doc.span s).start)
    (statements.filter fun s => (doc.span s).start < (doc.span id).start)

/-- The declaration reads something declared between an offset and itself. -/
def readsFrom (doc : Document) (id : NodeId) (offset : Nat) : Bool :=
  (doc.descendants id).any fun reader =>
    doc.kind reader = .identifierReference &&
    match (doc.symbol reader).bind doc.declarationOf? with
    | some target => (Span.mk offset (doc.span id).start).contains (doc.span target).start
    | none => false

/-- Move the declaration above the statement and the comments that lead to it. -/
def fix? (doc : Document) (id first : NodeId) (binding : Binding) : Option Fix :=
  match doc.moveStatement id (doc.leadingCommentStart (doc.span first).start) with
  | .ok edits =>
    some ((Fix.ofEdits edits).withMessage
      ("Move '" ++ .ofList binding.name ++ "' above its first use"))
  | .error _ => none

def check (doc : Document) (id : NodeId) : Option Diagnostic := do
  let binding ← doc.binding? id
  let first ← firstUse? doc id binding
  guard (!readsFrom doc id (doc.span first).start)
  let identifier ← doc.slotNode? id "id"
  let diagnostic := Diagnostic.ofTemplate name (doc.span identifier) "usedBeforeDeclared"
    "Type '\x7b\x7bname\x7d\x7d' is used before it is declared." [("name", .ofList binding.name)]
  let labelled := diagnostic.withLabel (doc.span first) "first used here"
  match fix? doc id first binding with
  | some fix => some (labelled.withFix fix)
  | none => some labelled

/-- What is cut out of the source for a diagnostic, on the way to its fix. -/
def cuts (doc : Document) (id : NodeId) : List Span :=
  match check doc id, (doc.binding? id).bind (firstUse? doc id) with
  | some _, some first =>
    doc.leadingCuts (doc.span first).start ++
      doc.moveCuts id (doc.leadingCommentStart (doc.span first).start)
  | _, _ => []

end TypesBeforeUse

end ScriptLint
