import ScriptLint.Scope.Binding
import ScriptLint.Scope.Naming

/-!
References: reads of a binding, each with the role it plays where it stands. The role is that of
the nearest construct above the identifier which settles one; the walk ends at a function, at a
list of statements or at a statement.
-/
namespace ScriptLint

inductive Role where
  /-- In a parameter, or the properties type of a component variable. -/
  | functionParameter
  | returnType
  | exported
  | typeArgument
  | initializer
  | other
  deriving DecidableEq, Repr

structure Reference where
  identifier : NodeId
  /-- The node that uses the binding: the identifier itself, or the variable that it types. -/
  site : NodeId
  role : Role
  deriving DecidableEq, Repr

structure Binding where
  name : Text
  declaration : NodeId
  symbol : Nat
  references : List Reference
  deriving DecidableEq, Repr

namespace Document

/-- The parent, if it has the kind. -/
def parentOfKind? (doc : Document) (id : NodeId) (kind : NodeKind) : Option NodeId :=
  (doc.parent id).filter fun parent => doc.kind parent = kind

/-- For the argument of a component type that a variable is declared with: that variable's
declarator. -/
def componentVariable? (doc : Document) (identifier : NodeId) : Option NodeId := do
  let argument ← doc.parentOfKind? identifier .typeReference
  let arguments ← doc.parentOfKind? argument .typeArguments
  let component ← doc.parentOfKind? arguments .typeReference
  let name ← doc.slotNode? component "typeName"
  if isContainerAlias (doc.text name) then
    let declared ← doc.parentOfKind? component .annotatedType
    doc.findAncestorOfKind? declared .variableDeclarator (some 2)
  else none

/-- The node is what its parent, a function, gives back. -/
def isReturnType (doc : Document) (id : NodeId) : Bool :=
  match doc.parent id with
  | some parent => (doc.kind parent).isFunction && doc.slotNode? parent "returnType" = some id
  | none => false

/-- The role that a node gives to a read somewhere below its child, if it settles one. -/
def roleFrom? (doc : Document) (child id : NodeId) : Option Role :=
  let boundary : Option Role :=
    if (doc.kind id).isFunction || (doc.kind id).isStatementContainer || doc.isStatement id then
      some .other
    else none
  match doc.kind id with
  | .exportSpecifier => some .exported
  | .exportDefaultDeclaration =>
    if doc.slotNode? id "declaration" = some child then some .exported else boundary
  | .typeArguments => some .typeArgument
  | .formalParameter => some .functionParameter
  | .annotatedType => if doc.isReturnType id then some .returnType else boundary
  | .variableDeclarator =>
    if doc.slotNode? id "init" = some child then some .initializer else boundary
  | _ => boundary

/-- The first role settled on the way up. -/
def roleAlong (doc : Document) (child : NodeId) : List NodeId → Role
  | [] => .other
  | id :: above => (doc.roleFrom? child id).getD (doc.roleAlong id above)

/-- The reference that an identifier makes. -/
def classify (doc : Document) (identifier : NodeId) : Reference :=
  match doc.componentVariable? identifier with
  | some declarator => ⟨identifier, declarator, .functionParameter⟩
  | none => ⟨identifier, identifier, doc.roleAlong identifier (doc.strictAncestors identifier)⟩

/-- The binding that a declaration introduces, with all reads of it. -/
def binding? (doc : Document) (declaration : NodeId) : Option Binding := do
  let identifier ← doc.bindingIdentifier? declaration
  let symbol ← doc.symbol identifier
  some
    { name := doc.text identifier
      declaration
      symbol
      references := (doc.reads symbol).map doc.classify }

/-- All reads of what a declaration binds, none if it binds nothing known. -/
def references (doc : Document) (declaration : NodeId) : List Reference :=
  match doc.binding? declaration with
  | some binding => binding.references
  | none => []

/-- The node stands in an exported function or variable. -/
def isInExported (doc : Document) (id : NodeId) : Bool :=
  (doc.ancestors id).any fun a =>
    ((doc.kind a).isFunction || doc.kind a = .variableDeclarator) && doc.isExported a

/-- There is just one read, and neither the declaration nor anything around the read is
exported. -/
def isReadOnce (doc : Document) (declaration : NodeId) : Bool :=
  match doc.references declaration with
  | [reference] =>
    !(reference.role = .exported || doc.isExported declaration) &&
      !doc.isInExported reference.identifier && !doc.isInExported reference.site
  | _ => false

end Document

end ScriptLint
