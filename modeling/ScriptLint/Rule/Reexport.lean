import ScriptLint.Report.Diagnostic
import ScriptLint.Scope.Binding

/-!
The rule `no-reexport`: a module exports neither from another module nor a name that it imports.
-/
namespace ScriptLint.Reexport

def name : String := "no-reexport"

def selectors : List String := [
  "ExportAllDeclaration",
  "ExportNamedDeclaration[source]",
  "ExportNamedDeclaration[specifiers.length>0] > ExportSpecifier",
  "ExportDefaultDeclaration > Identifier"]

/-- An exported identifier that reads an imported name. -/
def checkIdentifier (doc : Document) (identifier : NodeId) : Option Diagnostic := do
  let symbol ← doc.symbol identifier
  let declaration ← doc.declarationOf? symbol
  guard (doc.kind declaration).isImportSpecifier
  let diagnostic := Diagnostic.ofTemplate name (doc.span identifier) "reexportBinding"
    "'\x7b\x7bname\x7d\x7d' is imported from another module and re-exported."
    [("name", .ofList (doc.text identifier))]
  some (diagnostic.withLabel (doc.span declaration) "imported here")

/-- An export that names the module it exports from. -/
def checkSource (doc : Document) (id : NodeId) : Option Diagnostic := do
  let source ← doc.slotNode? id "source"
  some (Diagnostic.ofTemplate name (doc.span id) "reexportFrom"
    "Do not re-export from \x7b\x7bsource\x7d\x7d; import from it directly."
    [("source", .ofList (doc.text source))])

/-- The node is part of an export from another module. -/
def hasSource (doc : Document) (specifier : NodeId) : Bool :=
  match doc.parent specifier with
  | some parent => (doc.slotNode? parent "source").isSome
  | none => false

def check (doc : Document) (id : NodeId) : Option Diagnostic :=
  match doc.kind id with
  | .exportAllDeclaration | .exportNamedDeclaration => checkSource doc id
  | .exportSpecifier =>
    if hasSource doc id then none
    else (doc.slotNode? id "local").bind (checkIdentifier doc)
  | .identifierReference => checkIdentifier doc id
  | _ => none

end ScriptLint.Reexport
