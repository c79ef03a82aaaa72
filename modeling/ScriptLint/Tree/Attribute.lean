import ScriptLint.Number.Reader
import ScriptLint.Number.Shortest
import ScriptLint.Text.Blank
import ScriptLint.Tree.Document

/-!
Attributes of nodes, as selectors see them. An attribute is a built-in one (`type`, `name`,
`value`, `raw`, `operator`, `kind`, `start`, `end`) where the node has it, else a flag, else a
slot. A path follows attributes from node to node; lists and texts have a `length`, and lists can
be entered by position.
-/
namespace ScriptLint

/-- A number as predicates compare it with text: whole numbers below 10^15 have no sign of zero. -/
def Binary64.scalar (x : Binary64) : Text :=
  match x.whole? with
  | some i => if i.natAbs < Nat.pow 10 15 then (toString i).toList else x.text
  | none => x.text

inductive AttrValue where
  | node (id : NodeId)
  | list (ids : List NodeId)
  | text (s : Text)
  | number (x : Binary64)
  | flag (b : Bool)
  | null
  deriving DecidableEq, Repr

namespace AttrValue

/-- The value as text; nodes and lists have none. -/
def scalar? : AttrValue → Option Text
  | .text s => some s
  | .number x => some x.scalar
  | .flag b => some (if b then "true".toList else "false".toList)
  | .null => some "null".toList
  | .node _ | .list _ => none

/-- The value as a number; a text is read without the blanks around it. -/
def number? : AttrValue → Option Binary64
  | .number x => some x
  | .text s => Number.read? (Text.trim s)
  | _ => none

end AttrValue

namespace Document

/-- The text unless it is empty. -/
def nonempty? (s : Text) : Option Text := if s = [] then none else some s

def literalValue (doc : Document) (id : NodeId) : AttrValue :=
  let raw := doc.text id
  match doc.kind id with
  | .stringLiteral => .text ((Text.slice? raw ⟨1, Text.width raw - 1⟩).getD [])
  | .numericLiteral => ((Number.literal? raw).map AttrValue.number).getD .null
  | .booleanLiteral => .flag (raw == "true".toList)
  | .nullLiteral => .null
  | _ => .text raw

/-- What stands between the operands, or before the only one, without blanks and parentheses at
its ends. -/
def operator? (doc : Document) (id : NodeId) : Option Text :=
  match doc.kind id with
  | .unaryExpression => do
    let argument ← doc.slotNode? id "argument"
    let front ← Text.slice? doc.source ⟨(doc.span id).start, (doc.span argument).start⟩
    nonempty? (Text.trim (Text.dropEndWhile (· == '(') (Text.trim front)))
  | .binaryExpression | .logicalExpression | .assignmentExpression => do
    let left ← doc.slotNode? id "left"
    let right ← doc.slotNode? id "right"
    let between ← Text.slice? doc.source ⟨(doc.span left).stop, (doc.span right).start⟩
    let opened := (Text.trim between).dropWhile (· == ')')
    nonempty? (Text.trim (Text.dropEndWhile (· == '(') opened))
  | _ => none

/-- The keyword that opens a variable declaration. -/
def declarationKeyword? (doc : Document) (id : NodeId) : Option Text :=
  let text := doc.text id
  let declare := "declare".toList
  let rest :=
    if declare.isPrefixOf text then Text.trimStart (text.drop declare.length) else text
  if "await".toList.isPrefixOf rest then some "await using".toList
  else nonempty? (rest.takeWhile Char.isAlpha)

def builtin? (doc : Document) (id : NodeId) (name : String) : Option AttrValue :=
  let kind := doc.kind id
  match name with
  | "type" => some (.text kind.typeName.toList)
  | "name" => if kind.isIdentifier then some (.text (doc.text id)) else none
  | "value" => if kind.isLiteral then some (doc.literalValue id) else none
  | "raw" =>
    if kind.isLiteral ∨ kind = .templateLiteral then some (.text (doc.text id)) else none
  | "operator" => (doc.operator? id).map .text
  | "kind" =>
    if kind = .variableDeclaration then (doc.declarationKeyword? id).map .text else none
  | "start" => some (.number (.ofNat (doc.span id).start))
  | "end" => some (.number (.ofNat (doc.span id).stop))
  | _ => none

def attribute? (doc : Document) (id : NodeId) (name : String) : Option AttrValue :=
  match doc.builtin? id name with
  | some value => some value
  | none =>
    match doc.flag? id name with
    | some b => some (.flag b)
    | none =>
      match doc.slot? id name with
      | some (.one child) => some (.node child)
      | some (.many children) => some (.list children)
      | none => none

/-- One step of a path. -/
def step? (doc : Document) (value : AttrValue) (segment : String) : Option AttrValue :=
  match value with
  | .node id => doc.attribute? id segment
  | .list ids =>
    if segment = "length" then some (.number (.ofNat ids.length))
    else do
      let place ← Number.index? segment.toList
      let id ← ids[place]?
      some (.node id)
  | .text s => if segment = "length" then some (.number (.ofNat s.length)) else none
  | _ => none

/-- Follow a path from a node; nothing comes of a step that is not there. -/
def resolvePath? (doc : Document) (id : NodeId) (path : List String) : Option AttrValue :=
  path.foldlM doc.step? (.node id)

end Document

end ScriptLint
