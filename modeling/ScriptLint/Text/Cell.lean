import ScriptLint.Text.Bytes

/-!
A text byte by byte. Whoever scans bytes only asks which ASCII character a byte is, so a byte is
given as that character, or as a piece of a wider one. There are as many cells as bytes.
-/
namespace ScriptLint.Text

/-- One byte of a text: an ASCII character, or a piece of a character that takes several. -/
abbrev Cell := Option Char

def charCells (c : Char) : List Cell :=
  if c.utf8Size = 1 then [some c] else List.replicate c.utf8Size none

def cells (s : Text) : List Cell := s.flatMap charCells

theorem length_charCells (c : Char) : (charCells c).length = c.utf8Size := by
  unfold charCells
  split
  · simp [*]
  · simp

theorem length_cells (s : Text) : (cells s).length = width s := by
  unfold cells
  induction s with
  | nil => rfl
  | cons c cs ih => simp [length_charCells, ih]

end ScriptLint.Text
