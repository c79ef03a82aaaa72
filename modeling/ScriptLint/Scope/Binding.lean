import ScriptLint.Tree.Walk

/-!
Declarations and the names they bind. The symbols come with the document; here they are traced to
the identifiers that bind them, the declarations around those, and the identifiers that read them.
-/
namespace ScriptLint.Document

/-- The identifier that a declaration binds, looked for through at most `fuel` wrappers: an export
passes on to what it exports, a list of variables to its only entry. -/
def boundIdentifier? (doc : Document) : (fuel : Nat) → NodeId → Option NodeId
  | 0, _ => none
  | fuel + 1, id =>
    let named (slot : String) : Option NodeId :=
      (doc.slotNode? id slot).filter fun name => doc.kind name = .bindingIdentifier
    match doc.kind id with
    | .bindingIdentifier => some id
    | .formalParameter => named "pattern"
    | .importSpecifier | .importDefaultSpecifier | .importNamespaceSpecifier => named "local"
    | .exportNamedDeclaration | .exportDefaultDeclaration =>
      (doc.slotNode? id "declaration").bind (doc.boundIdentifier? fuel)
    | .variableDeclaration =>
      match doc.slotNodes id "declarations" with
      | [only] => doc.boundIdentifier? fuel only
      | _ => none
    | _ => named "id"

/-- The identifier that a declaration binds, if it binds just one. Wrappers lie inside each other,
so there are fewer of them than nodes. -/
def bindingIdentifier? (doc : Document) (id : NodeId) : Option NodeId :=
  doc.boundIdentifier? doc.size id

/-- The declaration around a binding identifier: the nearest of the three nodes above it that is
one, or else the identifier itself. -/
def enclosingDeclaration (doc : Document) (identifier : NodeId) : NodeId :=
  (doc.findAncestor? identifier (some 3) fun node => node.kind.isDeclaration).getD identifier

/-- The declaration of a symbol, that of the first identifier which binds it. -/
def declarationOf? (doc : Document) (symbol : Nat) : Option NodeId :=
  ((doc.idsOfKind .bindingIdentifier).find? fun id => doc.symbol id = some symbol).map
    doc.enclosingDeclaration

/-- The identifiers that read a symbol, in visiting order. -/
def reads (doc : Document) (symbol : Nat) : List NodeId :=
  (doc.idsOfKind .identifierReference).filter fun id => doc.symbol id = some symbol

/-- The node stands in a statement that exports a declaration or a value. -/
def isExported (doc : Document) (id : NodeId) : Bool :=
  match doc.statementOf? id with
  | some statement =>
    doc.kind statement = .exportNamedDeclaration || doc.kind statement = .exportDefaultDeclaration
  | none => false

end ScriptLint.Document
