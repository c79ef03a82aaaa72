import ScriptLint.Edit
import ScriptLint.Text.Blank
import ScriptLint.Text.Line
import ScriptLint.Tree.TokenRange

/-!
Moving a statement to an earlier or later line. The statement takes with it the comments directly
above it and the semicolon directly after it; its lines disappear where nothing else stands on
them.

On the way spans are cut out of the source. A cut that is not whole has no text, and what the
functions give then is of no account: the run breaks off (`RuleSet.brokenCut?`). So each function
that cuts at other places than the ends of nodes has beside it the list of its cuts, in the order
in which they are made.
-/
namespace ScriptLint.Document

/-- Only blanks stand in the span. -/
def isBlankIn (doc : Document) (span : Span) : Bool := Text.allBlank (Text.slice doc.source span)

/-- Only blanks stand in the span and at most one line feed among them. -/
def isNarrow (doc : Document) (span : Span) : Bool :=
  doc.isBlankIn span && (Text.slice doc.source span).count '\n' ≤ 1

/-- From the start of its line to an offset. -/
def lineFront (doc : Document) (offset : Nat) : Span :=
  ⟨Text.lineStart doc.source offset, offset⟩

/-- From an offset to the end of its line. -/
def lineBack (doc : Document) (offset : Nat) : Span :=
  ⟨offset, Text.lineEnd doc.source offset⟩

/-- To find the start of a line, all before the offset is cut out. -/
def frontCut (doc : Document) (offset : Nat) : Span := ⟨0, min offset (Text.width doc.source)⟩

/-- To find the end of a line, all after the offset is cut out. -/
def backCut (doc : Document) (offset : Nat) : Span :=
  ⟨min offset (Text.width doc.source), Text.width doc.source⟩

/-- The comment begins its line and is followed, up to the offset, by blanks only and at most one
line feed. -/
def leadsTo (doc : Document) (token : Token) (start : Nat) : Bool :=
  token.isComment && doc.isNarrow ⟨token.span.stop, start⟩ &&
    doc.isBlankIn (doc.lineFront token.span.start)

/-- The cuts of `leadsTo`. The line of the comment is looked at only if the gap does not part the
comment from the offset. -/
def leadCuts (doc : Document) (token : Token) (start : Nat) : List Span :=
  let gap : Span := ⟨token.span.stop, start⟩
  if token.isComment then
    if doc.isNarrow gap then
      [gap, doc.frontCut token.span.start, doc.lineFront token.span.start]
    else [gap]
  else []

/-- Go back over the tokens, nearest first, as long as they are comments that lead to the
offset. -/
def commentsStart (doc : Document) (start : Nat) : List Token → Nat
  | [] => start
  | token :: rest =>
    if doc.leadsTo token start then doc.commentsStart token.span.start rest else start

def commentCuts (doc : Document) (start : Nat) : List Token → List Span
  | [] => []
  | token :: rest =>
    doc.leadCuts token start ++
      if doc.leadsTo token start then doc.commentCuts token.span.start rest else []

/-- Start of the block of comments directly above an offset, the offset itself if there is none. -/
def leadingCommentStart (doc : Document) (start : Nat) : Nat :=
  doc.commentsStart start (doc.tokensAroundSpan ⟨start, start⟩ .before)

def leadingCuts (doc : Document) (start : Nat) : List Span :=
  doc.commentCuts start (doc.tokensAroundSpan ⟨start, start⟩ .before)

/-- A statement with the semicolon directly after it. -/
def statementSpan (doc : Document) (id : NodeId) : Span :=
  let span := doc.span id
  match Text.drop span.stop doc.source with
  | ';' :: _ => ⟨span.start, span.stop + 1⟩
  | _ => span

/-- What is taken out when the text of `moved` leaves: where nothing else stands before it on its
line, the line from its start; where nothing follows, the line feed that ends the line or, on the
last line, the one before it; and where the file is blank up to it, everything from the start of
the file. -/
def vacated (doc : Document) (moved : Span) : Span :=
  let source := doc.source
  let lineStart := Text.lineStart source moved.start
  let lineEnd := Text.lineEnd source moved.stop
  let opensLine := doc.isBlankIn (doc.lineFront moved.start)
  let closesLine := doc.isBlankIn (doc.lineBack moved.stop)
  let start := if opensLine then lineStart else moved.start
  let isLast := !(lineEnd < Text.width source)
  { start :=
      if doc.isBlankIn ⟨0, moved.start⟩ then 0
      else if closesLine && isLast && opensLine then start - 1
      else start
    stop := if closesLine && !isLast then lineEnd + 1 else moved.stop }

def vacatedCuts (doc : Document) (moved : Span) : List Span :=
  [doc.frontCut moved.start, doc.lineFront moved.start, doc.backCut moved.stop,
    doc.lineBack moved.stop, ⟨0, moved.start⟩]

/-- Where the text of the line that starts at an offset begins. -/
def lineText (doc : Document) (start : Nat) : Nat :=
  min (Text.lineEnd doc.source start) (Text.skipIndent doc.source start)

/-- The indentation of the line that starts at an offset. -/
def lineIndent (doc : Document) (start : Nat) : Text :=
  Text.indentAt doc.source (doc.lineText start)

def indentCuts (doc : Document) (start : Nat) : List Span :=
  [doc.backCut start, ⟨start, Text.width doc.source⟩, doc.frontCut (doc.lineText start),
    doc.lineFront (doc.lineText start)]

/-- The text that a statement takes along: the comments above it, the statement and the semicolon
after it. -/
def movedSpan (doc : Document) (id : NodeId) : Span :=
  ⟨doc.leadingCommentStart (doc.statementSpan id).start, (doc.statementSpan id).stop⟩

/-- The edits that move a statement to the line of the target, with that line's indentation. A
target strictly inside what is taken out is refused. -/
def moveStatement (doc : Document) (id : NodeId) (target : Nat) : Except EditError (List Edit) :=
  let moved := doc.movedSpan id
  let hole := doc.vacated moved
  let place := Text.lineStart doc.source target
  if hole.start < place ∧ place < hole.stop then .error (.overlapping hole ⟨place, place⟩)
  else
    .ok [.delete hole,
      .insert place (doc.lineIndent place ++ Text.slice doc.source moved ++ ['\n'])]

/-- The cuts of `moveStatement`. A move that is refused does not come to the last of them. -/
def moveCuts (doc : Document) (id : NodeId) (target : Nat) : List Span :=
  let moved := doc.movedSpan id
  let place := Text.lineStart doc.source target
  ⟨(doc.span id).stop, Text.width doc.source⟩ ::
    (doc.leadingCuts (doc.statementSpan id).start ++ doc.vacatedCuts moved ++
      doc.frontCut target ::
        match doc.moveStatement id target with
        | .ok _ => doc.indentCuts place ++ [moved]
        | .error _ => [])

/-- The indentation before a node on its line. -/
def indentOf (doc : Document) (id : NodeId) : Text :=
  Text.indentAt doc.source (doc.span id).start

def indentOfCuts (doc : Document) (id : NodeId) : List Span :=
  [doc.frontCut (doc.span id).start, doc.lineFront (doc.span id).start]

end ScriptLint.Document
