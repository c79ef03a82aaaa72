import ScriptLint.Tree.Document

/-!
Walks over the nodes of a document: up to the root, down through a subtree, sideways, and from an
offset to the innermost node around it. A walk takes at most as many steps as there are nodes,
which is enough in a tree and ends the walk in any other arena.
-/
namespace ScriptLint.Document

/-- The node, its parent and so on, at most `fuel` nodes. -/
def climb (doc : Document) : (fuel : Nat) → NodeId → List NodeId
  | 0, _ => []
  | fuel + 1, id =>
    id :: match doc.parent id with
      | some parent => doc.climb fuel parent
      | none => []

/-- The node itself, then its parent, up to the root. -/
def ancestors (doc : Document) (id : NodeId) : List NodeId := doc.climb doc.size id

/-- The nodes above a node, nearest first. -/
def strictAncestors (doc : Document) (id : NodeId) : List NodeId := (doc.ancestors id).drop 1

/-- The nearest node above that passes, at most `limit` steps up if there is a limit. -/
def findAncestor? (doc : Document) (id : NodeId) (limit : Option Nat) (test : Node → Bool) :
    Option NodeId :=
  let above := doc.strictAncestors id
  let inReach := match limit with
    | some n => above.take n
    | none => above
  inReach.find? fun a => test (doc.node a)

def findAncestorOfKind? (doc : Document) (id : NodeId) (kind : NodeKind) (limit : Option Nat) :
    Option NodeId :=
  doc.findAncestor? id limit fun node => node.kind = kind

/-- Visit the nodes of a stack, each one before its children, at most `fuel` nodes. -/
def descend (doc : Document) : (fuel : Nat) → (stack : List NodeId) → List NodeId
  | 0, _ => []
  | _, [] => []
  | fuel + 1, id :: stack => id :: doc.descend fuel (doc.children id ++ stack)

/-- The node and everything below it, a node before its children. -/
def descendants (doc : Document) (id : NodeId) : List NodeId := doc.descend doc.size [id]

/-- Place of a node among the children of its parent. -/
def indexInParent? (doc : Document) (id : NodeId) : Option Nat := do
  let parent ← doc.parent id
  (doc.children parent).idxOf? id

def previousSibling? (doc : Document) (id : NodeId) : Option NodeId := do
  let parent ← doc.parent id
  match ← doc.indexInParent? id with
  | 0 => none
  | place + 1 => (doc.children parent)[place]?

def nextSibling? (doc : Document) (id : NodeId) : Option NodeId := do
  let parent ← doc.parent id
  let place ← doc.indexInParent? id
  (doc.children parent)[place + 1]?

/-- The parent of the node is a list of statements. -/
def isStatement (doc : Document) (id : NodeId) : Bool :=
  match doc.parent id with
  | some parent => (doc.kind parent).isStatementContainer
  | none => false

/-- The statement that the node belongs to. -/
def statementOf? (doc : Document) (id : NodeId) : Option NodeId :=
  (doc.ancestors id).find? doc.isStatement

/-- Go down to the first child that contains the offset, as long as there is one. -/
def innermost (doc : Document) (offset : Nat) : (fuel : Nat) → NodeId → NodeId
  | 0, id => id
  | fuel + 1, id =>
    match (doc.children id).find? fun child => (doc.span child).contains offset with
    | some child => doc.innermost offset fuel child
    | none => id

/-- The innermost node around an offset. -/
def nodeAt? (doc : Document) (offset : Nat) : Option NodeId :=
  if (doc.span root).contains offset then some (doc.innermost offset doc.size root) else none

end ScriptLint.Document
