import ScriptLint.Text.Bytes

/-!
Blank characters and trimming. A character is blank when it has the Unicode property White_Space;
the zero-width space and the byte order mark do not have it.
-/
namespace ScriptLint.Text

/-- The Unicode property White_Space. -/
def isBlank (c : Char) : Bool :=
  let n := c.toNat
  (0x09 ≤ n && n ≤ 0x0D) || n == 0x20 || n == 0x85 || n == 0xA0 || n == 0x1680
    || (0x2000 ≤ n && n ≤ 0x200A) || n == 0x2028 || n == 0x2029 || n == 0x202F || n == 0x205F
    || n == 0x3000

theorem isBlank_of_isWhitespace {c : Char} (h : c.isWhitespace = true) : isBlank c = true := by
  simp only [Char.isWhitespace, Bool.or_eq_true, decide_eq_true_eq] at h
  rcases h with ((rfl | rfl) | rfl) | rfl <;> decide

/-- Drop the longest run at the end whose characters all pass. -/
def dropEndWhile (p : α → Bool) (xs : List α) : List α :=
  (xs.reverse.dropWhile p).reverse

def trimStart (s : Text) : Text := s.dropWhile isBlank

def trimEnd (s : Text) : Text := dropEndWhile isBlank s

def trim (s : Text) : Text := trimEnd (trimStart s)

/-- Nothing but blanks, or nothing at all. -/
def allBlank (s : Text) : Bool := s.all isBlank

end ScriptLint.Text
