import ScriptLint.Text.Bytes

/-!
What a parser reports about a file: a tree of constructs, each with its span and the members that
matter to indexing, and the comments. The parser itself is an argument of whatever needs one.
-/
namespace ScriptLint

/-- What is said of a member of a construct. A member that is not there is not mentioned. -/
inductive Member where
  | part (span : Span)
  | parts (spans : List Span)
  | set
  | symbol (id : Nat)
  | word (text : String)
  deriving DecidableEq, Repr

structure Element where
  construct : String
  span : Span
  members : List (String × Member)
  deriving DecidableEq, Repr

namespace Element

def part? (e : Element) (name : String) : Option Span :=
  match e.members.lookup name with
  | some (.part span) => some span
  | _ => none

def parts (e : Element) (name : String) : List Span :=
  match e.members.lookup name with
  | some (.parts spans) => spans
  | _ => []

def isSet (e : Element) (name : String) : Bool := e.members.lookup name == some .set

def symbol? (e : Element) : Option Nat :=
  match e.members.lookup "symbol" with
  | some (.symbol id) => some id
  | _ => none

def word? (e : Element) (name : String) : Option String :=
  match e.members.lookup name with
  | some (.word text) => some text
  | _ => none

end Element

/-- Constructs in the order in which they are visited, which need not be that of the text. -/
inductive Tree where
  | node (element : Element) (children : List Tree)

structure Comment where
  span : Span
  isBlock : Bool
  deriving DecidableEq, Repr

structure ParsedFile where
  tree : Tree
  comments : List Comment

/-- A parser gives a file or the messages of what is wrong with the text. -/
abbrev Parser := Text → Except (List String) ParsedFile

mutual

def Tree.size : Tree → Nat
  | .node _ children => 1 + Tree.sizeAll children

def Tree.sizeAll : List Tree → Nat
  | [] => 0
  | t :: ts => t.size + Tree.sizeAll ts

end

end ScriptLint
