import ScriptLint.Text.Bytes

/-!
Lines of a text. A line ends at a line feed, which belongs to no line, or at the end of the text.
Offsets past the end count as the end.
-/
namespace ScriptLint.Text

/-- The characters after the last line feed. -/
def lastLine (cs : Text) : Text :=
  (cs.reverse.takeWhile (· != '\n')).reverse

/-- The characters before the first line feed. -/
def firstLine (cs : Text) : Text :=
  cs.takeWhile (· != '\n')

/-- Offset of the first byte of the line that holds the offset. -/
def lineStart (s : Text) (offset : Nat) : Nat :=
  let front := take offset s
  width front - width (lastLine front)

/-- Offset of the line feed that ends the line holding the offset, or the end of the text. -/
def lineEnd (s : Text) (offset : Nat) : Nat :=
  width (take offset s) + width (firstLine (drop offset s))

def isIndent (c : Char) : Bool := c == ' ' || c == '\t'

/-- The spaces and tabs that open the line of the offset, as far as the offset. -/
def indentAt (s : Text) (offset : Nat) : Text :=
  (slice s ⟨lineStart s offset, offset⟩).takeWhile isIndent

/-- The first offset from the given one on that holds neither a space nor a tab. -/
def skipIndent (s : Text) (offset : Nat) : Nat :=
  offset + width ((drop offset s).takeWhile isIndent)

end ScriptLint.Text
