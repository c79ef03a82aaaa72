import ScriptLint.Text.Cell

/-!
Tokens of a source text. The parser tells where comments and literals are; these spans are reserved
and taken whole. What is left is words, punctuators and blanks, which `lex` reads from left to
right, byte by byte. Quotes outside the reserved spans still open a string or a template, so that a
text can be read without a parser. A word is a run of letters, digits, `_`, `$`, `#` and of pieces
of wider characters; anything else is the longest punctuator that fits, or a single byte.
-/
namespace ScriptLint

inductive TokenKind where
  | word | punctuator | literal | lineComment | blockComment
  deriving DecidableEq, Repr

structure Token where
  kind : TokenKind
  span : Span
  /-- A line feed stands between this token and the one before it. -/
  newlineBefore : Bool
  deriving DecidableEq, Repr

/-- Where reserved spans start: the stop of the span and the kind of its token. -/
abbrev Reserved := Nat → Option (Nat × TokenKind)

namespace Token

open Text (Cell)

def isComment (t : Token) : Bool := t.kind == .lineComment || t.kind == .blockComment

def text (t : Token) (source : Text) : Text := Text.slice source t.span

def isPunctuator (t : Token) (source : Text) (value : String) : Bool :=
  t.kind == .punctuator && t.text source == value.toList

/-- Punctuators of more than one character, longer ones first. -/
def punctuators : List String := [
  "...", "===", "!==", "**=", "<<=", "&&=", "||=", "??=", "=>", "==", "!=", "<=", ">=", "&&",
  "||", "??", "?.", "++", "--", "+=", "-=", "*=", "/=", "%=", "&=", "|=", "^=", "**", "<<"]

def isWordCell : Cell → Bool
  | none => true
  | some c => c.isAlphanum || c == '_' || c == '$' || c == '#'

def isBlankCell : Cell → Bool
  | none => false
  | some c => c == ' ' || c == '\t' || c == '\r' || c == '\x0b' || c == '\x0c'

/-- Bytes of a string after its opening quote. It ends after the next quote or before a line feed;
a backslash takes the byte after it along. -/
def stringLength (quote : Char) : List Cell → Nat
  | [] => 0
  | [c] => if c = some '\n' then 0 else 1
  | c :: d :: rest =>
    if c = some '\\' then 2 + stringLength quote rest
    else if c = some '\n' then 0
    else if c = some quote then 1
    else 1 + stringLength quote (d :: rest)

/-- What a scan inside a template is in the middle of: template text or, at a positive depth of
braces, code; or a string within such code. -/
inductive Frame where
  | template (depth : Nat)
  | quoted (quote : Char)
  deriving DecidableEq, Repr

/-- The frames after one cell that is neither a backslash nor opens code in template text. -/
def Frame.step (c : Cell) : List Frame → List Frame
  | [] => []
  | .quoted quote :: below =>
    if c = some quote ∨ c = some '\n' then below else .quoted quote :: below
  | .template 0 :: below => if c = some '\x60' then below else .template 0 :: below
  | .template (depth + 1) :: below =>
    match c with
    | some '{' => .template (depth + 2) :: below
    | some '}' => .template depth :: below
    | some '"' => .quoted '"' :: .template (depth + 1) :: below
    | some '\'' => .quoted '\'' :: .template (depth + 1) :: below
    | some '\x60' => .template 0 :: .template (depth + 1) :: below
    | _ => .template (depth + 1) :: below

/-- Bytes until the outermost frame is left, or all that there are. -/
def templateLength : List Frame → List Cell → Nat
  | [], _ => 0
  | _, [] => 0
  | _, [_] => 1
  | frame :: below, c :: d :: rest =>
    if c = some '\\' then 2 + templateLength (frame :: below) rest
    else if frame = .template 0 ∧ c = some '$' ∧ d = some '{' then
      2 + templateLength (.template 1 :: below) rest
    else 1 + templateLength (Frame.step c (frame :: below)) (d :: rest)

/-- Kind and length of the token that starts with a cell that is not blank. -/
def lexeme (c : Cell) (rest : List Cell) : TokenKind × Nat :=
  if c = some '"' ∨ c = some '\'' then (.literal, 1 + stringLength (c.getD '"') rest)
  else if c = some '\x60' then (.literal, 1 + templateLength [.template 0] rest)
  else if isWordCell c then (.word, 1 + (rest.takeWhile isWordCell).length)
  else
    match punctuators.find? fun p => (p.toList.map some).isPrefixOf (c :: rest) with
    | some p => (.punctuator, p.length)
    | none => (.punctuator, 1)

/-- Tokens of the cells from an offset on. The first `skip` cells belong to a token that is already
out; `newline` says whether a line feed has passed since the last token. -/
def lex (reserved : Reserved) (offset skip : Nat) (newline : Bool) : List Cell → List Token
  | [] => []
  | c :: rest =>
    match skip with
    | skip + 1 => lex reserved (offset + 1) skip newline rest
    | 0 =>
      let emit (kind : TokenKind) (length : Nat) : List Token :=
        ⟨kind, ⟨offset, offset + length⟩, newline⟩ ::
          lex reserved (offset + 1) (length - 1) false rest
      match reserved offset with
      | some (stop, kind) => emit kind (min (max (stop - offset) 1) (rest.length + 1))
      | none =>
        if c = some '\n' then lex reserved (offset + 1) 0 true rest
        else if isBlankCell c then lex reserved (offset + 1) 0 newline rest
        else
          let (kind, length) := lexeme c rest
          emit kind length

def tokenize (source : Text) (reserved : Reserved) : List Token :=
  lex reserved 0 0 false (Text.cells source)

end Token

end ScriptLint
