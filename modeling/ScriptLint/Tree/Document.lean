import ScriptLint.Token
import ScriptLint.Tree.Layout

/-!
Indexed documents. The constructs of a parsed file become an arena of nodes, numbered in visiting
order, with links to parent and children; then every slot is filled with the nodes whose spans it
asks for, and the text is cut into tokens. A tree with a span that leaves the text or the parent's
span is refused, and the first such node in visiting order is named.
-/
namespace ScriptLint

/-- A node is known by its position in the arena of its document. -/
abbrev NodeId := Nat

/-- What fills a named slot of a node. -/
inductive Slot where
  | one (id : NodeId)
  | many (ids : List NodeId)
  deriving DecidableEq, Repr

structure Node where
  kind : NodeKind
  span : Span
  parent : Option NodeId
  children : List NodeId
  slots : List (String × Slot)
  flags : List (String × Bool)
  /-- The symbol that an identifier declares or refers to. -/
  symbol : Option Nat
  deriving DecidableEq, Repr

/-- The node that stands in for one that is not there. -/
def Node.absent : Node := ⟨.unknown, ⟨0, 0⟩, none, [], [], [], none⟩

inductive TreeError where
  | outOfBounds (span : Span) (size : Nat)
  | outsideParent (childKind : NodeKind) (child : Span) (parentKind : NodeKind) (parent : Span)
  deriving DecidableEq, Repr

def TreeError.message : TreeError → String
  | .outOfBounds span size =>
    "span " ++ span.text ++ " is outside the source text (length " ++ toString size ++ ")"
  | .outsideParent childKind child parentKind parent =>
    childKind.typeName ++ " at " ++ child.text ++ " is not inside its parent "
      ++ parentKind.typeName ++ " at " ++ parent.text

/-- A node whose slots still wait to be filled. -/
structure Draft where
  node : Node
  pending : List (String × Pending)
  deriving Repr

/-- Ids of sibling trees, the first of which has the given id. -/
def Tree.childIds (next : NodeId) : List Tree → List NodeId
  | [] => []
  | t :: ts => next :: Tree.childIds (next + t.size) ts

mutual

/-- The drafts of a tree in visiting order. The root has the given id; `outer` is the node it
stands below. -/
def Tree.drafts (resolved : Bool) (outer : Option (NodeId × Element)) (id : NodeId) :
    Tree → List Draft
  | .node element children =>
    let description := element.describe resolved (outer.map (·.2))
    { node :=
        { kind := description.kind
          span := element.span
          parent := outer.map (·.1)
          children := Tree.childIds (id + 1) children
          slots := []
          flags := description.flags
          symbol := description.symbol }
      pending := description.pending } ::
    Tree.draftsAll resolved (id, element) (id + 1) children

def Tree.draftsAll (resolved : Bool) (outer : NodeId × Element) (next : NodeId) :
    List Tree → List Draft
  | [] => []
  | t :: ts =>
    t.drafts resolved (some outer) next ++ Tree.draftsAll resolved outer (next + t.size) ts

end

namespace Arena

def get (nodes : Array Node) (id : NodeId) : Node := nodes.getD id .absent

/-- What is wrong with the span of a node, the first cause only. -/
def fault? (size : Nat) (nodes : Array Node) (node : Node) : Option TreeError :=
  if size < node.span.stop ∨ node.span.stop < node.span.start then
    some (.outOfBounds node.span size)
  else
    match node.parent with
    | none => none
    | some id =>
      let parent := get nodes id
      if parent.span.covers node.span then none
      else some (.outsideParent node.kind node.span parent.kind parent.span)

/-- The first node of the queue, and then below it breadth first, that has the span and is not
taken. Only nodes that cover the span are looked into. -/
def search (nodes : Array Node) (taken : List NodeId) (span : Span) :
    (fuel : Nat) → (queue : List NodeId) → Option NodeId
  | 0, _ => none
  | _, [] => none
  | fuel + 1, id :: queue =>
    let node := get nodes id
    if node.span = span ∧ id ∉ taken then some id
    else if node.span.covers span then search nodes taken span fuel (queue ++ node.children)
    else search nodes taken span fuel queue

/-- A node below the owner with the span; every node is looked at once at most. -/
def below? (nodes : Array Node) (owner : Node) (taken : List NodeId) (span : Span) :
    Option NodeId :=
  search nodes taken span nodes.size owner.children

/-- Pick a node for each span; spans for which there is none are left out. -/
def pickAll (nodes : Array Node) (owner : Node) (taken : List NodeId) :
    List Span → List NodeId
  | [] => []
  | span :: rest =>
    match below? nodes owner taken span with
    | some id => id :: pickAll nodes owner (id :: taken) rest
    | none => pickAll nodes owner taken rest

/-- Fill the slots of a node in order. A node taken by one slot is no longer there for a later
one; the slot for a child of a kind neither takes its node nor minds that it is taken. -/
def fill (nodes : Array Node) (owner : Node) (taken : List NodeId) :
    List (String × Pending) → List (String × Slot)
  | [] => []
  | (name, .one span) :: rest =>
    match below? nodes owner taken span with
    | some id => (name, .one id) :: fill nodes owner (id :: taken) rest
    | none => fill nodes owner taken rest
  | (name, .many spans) :: rest =>
    let ids := pickAll nodes owner taken spans
    (name, .many ids) :: fill nodes owner (ids ++ taken) rest
  | (name, .childOf kind) :: rest =>
    match owner.children.find? fun id => (get nodes id).kind = kind with
    | some id => (name, .one id) :: fill nodes owner taken rest
    | none => fill nodes owner taken rest

/-- Reserved spans: those of comments, the last one where several start together, and then those
of literals, the longest one where several start together. -/
def reserved (nodes : List Node) (comments : List Comment) : Reserved := fun offset =>
  match (comments.filter (·.span.start == offset)).getLast? with
  | some comment =>
    some (comment.span.stop, if comment.isBlock then .blockComment else .lineComment)
  | none =>
    let literals := nodes.filter fun node => node.kind.isReserved && node.span.start == offset
    (literals.map (·.span.stop)).max?.map fun stop => (stop, .literal)

end Arena

/-- A source text with the nodes and tokens found in it. -/
structure Document where
  source : Text
  nodes : Array Node
  tokens : Array Token
  deriving Repr

namespace Document

/-- Index a parsed file over a source text. References get their symbols only if names were
resolved. -/
def build (source : Text) (file : ParsedFile) (resolved : Bool) : Except TreeError Document :=
  let drafts := file.tree.drafts resolved none 0
  let skeleton := (drafts.map (·.node)).toArray
  match skeleton.toList.findSome? (Arena.fault? (Text.width source) skeleton) with
  | some error => .error error
  | none =>
    let nodes := drafts.map fun draft =>
      { draft.node with slots := Arena.fill skeleton draft.node [] draft.pending }
    .ok
      { source
        nodes := nodes.toArray
        tokens := (Token.tokenize source (Arena.reserved nodes file.comments)).toArray }

def size (doc : Document) : Nat := doc.nodes.size

/-- The first node visited, which holds all others. -/
def root : NodeId := 0

def node (doc : Document) (id : NodeId) : Node := Arena.get doc.nodes id

def kind (doc : Document) (id : NodeId) : NodeKind := (doc.node id).kind

def span (doc : Document) (id : NodeId) : Span := (doc.node id).span

def parent (doc : Document) (id : NodeId) : Option NodeId := (doc.node id).parent

def children (doc : Document) (id : NodeId) : List NodeId := (doc.node id).children

def symbol (doc : Document) (id : NodeId) : Option Nat := (doc.node id).symbol

def text (doc : Document) (id : NodeId) : Text := Text.slice doc.source (doc.span id)

/-- All ids in visiting order. -/
def ids (doc : Document) : List NodeId := List.range doc.size

def idsOfKind (doc : Document) (kind : NodeKind) : List NodeId :=
  doc.ids.filter fun id => doc.kind id = kind

def slot? (doc : Document) (id : NodeId) (name : String) : Option Slot :=
  (doc.node id).slots.lookup name

/-- The node in a slot for one node. -/
def slotNode? (doc : Document) (id : NodeId) (name : String) : Option NodeId :=
  match doc.slot? id name with
  | some (.one child) => some child
  | _ => none

/-- The nodes in a slot for many, none if there is no such slot. -/
def slotNodes (doc : Document) (id : NodeId) (name : String) : List NodeId :=
  match doc.slot? id name with
  | some (.many children) => children
  | _ => []

def flag? (doc : Document) (id : NodeId) (name : String) : Option Bool :=
  (doc.node id).flags.lookup name

def firstChildOfKind? (doc : Document) (id : NodeId) (kind : NodeKind) : Option NodeId :=
  (doc.children id).find? fun child => doc.kind child = kind

end Document

end ScriptLint
