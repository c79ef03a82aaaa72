import ScriptLint.Text.Blank
import ScriptLint.Tree.TokenRange

/-!
Writing a braced construct on one line, as `{ a: 1, b: 2 }`. It is refused where the construct
holds comments, where a member takes several lines, and where anything but delimiters and blanks
stands between members.
-/
namespace ScriptLint

/-- How the members of a braced construct are written on one line. -/
structure MemberStyle where
  separator : String
  /-- Members lose the delimiters that they end in. -/
  stripsDelimiters : Bool
  deriving DecidableEq, Repr

namespace MemberStyle

def ofKind? : NodeKind → Option MemberStyle
  | .objectExpression => some ⟨", ", true⟩
  | .typeLiteral | .interfaceBody => some ⟨"; ", true⟩
  | .blockStatement | .functionBody => some ⟨" ", false⟩
  | _ => none

def isDelimiter (c : Char) : Bool := c == ',' || c == ';'

/-- The text of a member without blanks, and perhaps delimiters, at its end. -/
def trim (style : MemberStyle) (member : Text) : Text :=
  Text.trimEnd (if style.stripsDelimiters then Text.dropEndWhile isDelimiter member else member)

end MemberStyle

/-- A text in braces, with room for both. -/
def Text.isBraced (text : Text) : Bool :=
  text.head? == some '{' && text.getLast? == some '}' && 2 ≤ width text

namespace Document

/-- The span may be cut out of the source, and holds blanks and delimiters only. -/
def isFiller (doc : Document) (span : Span) : Bool :=
  match Text.slice? doc.source span with
  | some gap => gap.all fun c => Text.isBlank c || MemberStyle.isDelimiter c
  | none => false

/-- The members as they are written on one line; `cursor` is where the member before them ends and
`stop` where the closing brace is. -/
def collapseMembers? (doc : Document) (style : MemberStyle) (stop cursor : Nat) :
    List NodeId → Option (List Text)
  | [] => if doc.isFiller ⟨cursor, stop⟩ then some [] else none
  | member :: rest =>
    if doc.isFiller ⟨cursor, (doc.span member).start⟩ && !(doc.text member).contains '\n' then
      (doc.collapseMembers? style stop (doc.span member).stop rest).map
        (style.trim (doc.text member) :: ·)
    else none

/-- The construct on one line. -/
def collapse? (doc : Document) (id : NodeId) : Option Text := do
  let style ← MemberStyle.ofKind? (doc.kind id)
  guard (!doc.hasComments id && Text.isBraced (doc.text id))
  let span := doc.span id
  match ← doc.collapseMembers? style (span.stop - 1) (span.start + 1) (doc.children id) with
  | [] => some ['{', '}']
  | members =>
    some (['{', ' '] ++ style.separator.toList.intercalate members ++ [' ', '}'])

end Document

end ScriptLint
