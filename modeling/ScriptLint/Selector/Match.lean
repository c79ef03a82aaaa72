import ScriptLint.Selector.Basic
import ScriptLint.Tree.Attribute
import ScriptLint.Tree.Walk

/-!
Matching nodes against selectors. Equality compares numbers with numbers and otherwise texts;
order compares numbers only. A path that leads nowhere fails every test, inequality included.
-/
namespace ScriptLint

namespace Literal

def scalar : Literal → Text
  | .text s => s
  | .number x => x.scalar
  | .flag b => if b then "true".toList else "false".toList
  | .null => "null".toList

def number? : Literal → Option Binary64
  | .number x => some x
  | .text s => Number.read? (Text.trim s)
  | _ => none

/-- A number equals what reads as the same number, any other scalar what has the same text. -/
def equals (value : AttrValue) (literal : Literal) : Bool :=
  match value, literal.number? with
  | .number x, some y => x.same y
  | _, _ => value.scalar? == some literal.scalar

end Literal

/-- The order of two numbers satisfies an operator of order. -/
def Operator.orders (operator : Operator) (x y : Binary64) : Bool :=
  match operator with
  | .gt => y.lt x
  | .lt => x.lt y
  | .ge => y.le x
  | .le => x.le y
  | .eq | .ne => false

namespace Predicate

def holds (p : Predicate) : Option AttrValue → Bool
  | none => false
  | some value =>
    match p.test with
    | none => value != .null
    | some (.eq, literal) => literal.equals value
    | some (.ne, literal) => !literal.equals value
    | some (operator, literal) =>
      match value.number?, literal.number? with
      | some x, some y => operator.orders x y
      | _, _ => false

end Predicate

def Compound.accepts (c : Compound) (doc : Document) (id : NodeId) : Bool :=
  (match c.kind with
    | some name => (doc.kind id).typeName == name
    | none => true) &&
  c.predicates.all fun p => p.holds (doc.resolvePath? id p.path)

namespace Selector

/-- The nodes above meet what is asked of them. A step to some node above tries them all. -/
def contextAccepts (doc : Document) : List (Combinator × Compound) → NodeId → Bool
  | [], _ => true
  | (.child, compound) :: rest, id =>
    match doc.parent id with
    | some parent => compound.accepts doc parent && contextAccepts doc rest parent
    | none => false
  | (.descendant, compound) :: rest, id =>
    (doc.strictAncestors id).any fun a => compound.accepts doc a && contextAccepts doc rest a

def accepts (s : Selector) (doc : Document) (id : NodeId) : Bool :=
  s.subject.accepts doc id && contextAccepts doc s.context id

/-- The values that the paths of the subject lead to, if the node matches. -/
def captures? (s : Selector) (doc : Document) (id : NodeId) : Option (List (String × AttrValue)) :=
  if s.accepts doc id then
    some (s.subject.predicates.filterMap fun p =>
      (doc.resolvePath? id p.path).map fun value => (".".intercalate p.path, value))
  else none

/-- The matching nodes of a subtree, a node before its children. -/
def matchAll (s : Selector) (doc : Document) (root : NodeId) : List NodeId :=
  (doc.descendants root).filter (s.accepts doc)

end Selector

end ScriptLint
