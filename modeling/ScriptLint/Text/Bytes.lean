import ScriptLint.Text.Span

/-!
Texts and their byte offsets. The text of a program is a list of characters, and an offset counts
the bytes of their UTF-8 form. `take` and `drop` never split a character: an offset inside one cuts
before it, so the two parts always make up the text. `isBoundary` says that a cut is exact.
-/
namespace ScriptLint

/-- The text of a program or a piece of it. -/
abbrev Text := List Char

namespace Text

/-- Number of bytes the characters take in UTF-8. -/
def width : Text → Nat
  | [] => 0
  | c :: cs => c.utf8Size + width cs

@[simp] theorem width_nil : width [] = 0 := rfl
@[simp] theorem width_cons (c : Char) (cs : Text) :
    width (c :: cs) = c.utf8Size + width cs := rfl
@[simp] theorem width_append (as bs : Text) : width (as ++ bs) = width as + width bs := by
  induction as with
  | nil => simp
  | cons c cs ih => simp [ih, Nat.add_assoc]

/-- A character takes at least one byte. -/
theorem length_le_width (cs : Text) : cs.length ≤ width cs := by
  induction cs with
  | nil => simp
  | cons c cs ih =>
    have := c.utf8Size_pos
    simp
    omega

/-- The characters that fit whole into the first `n` bytes. -/
def take : Nat → Text → Text
  | _, [] => []
  | n, c :: cs => if c.utf8Size ≤ n then c :: take (n - c.utf8Size) cs else []

/-- What `take` leaves. -/
def drop : Nat → Text → Text
  | _, [] => []
  | n, c :: cs => if c.utf8Size ≤ n then drop (n - c.utf8Size) cs else c :: cs

theorem take_append_drop (n : Nat) (cs : Text) : take n cs ++ drop n cs = cs := by
  induction cs generalizing n with
  | nil => rfl
  | cons c cs ih =>
    by_cases h : c.utf8Size ≤ n
    · simp [take, drop, h, ih]
    · simp [take, drop, h]

theorem width_take_le (n : Nat) (cs : Text) : width (take n cs) ≤ n := by
  induction cs generalizing n with
  | nil => simp [take]
  | cons c cs ih =>
    by_cases h : c.utf8Size ≤ n
    · have := ih (n - c.utf8Size)
      simp [take, h]
      omega
    · simp [take, h]

/-- Cutting at the end of the first part gives the two parts back. -/
theorem take_width_append (as bs : Text) : take (width as) (as ++ bs) = as := by
  induction as with
  | nil =>
    cases bs with
    | nil => rfl
    | cons c cs =>
      have : ¬ c.utf8Size ≤ 0 := by have := c.utf8Size_pos; omega
      simp [take, this]
  | cons c cs ih => simp [take, ih]

theorem drop_width_append (as bs : Text) : drop (width as) (as ++ bs) = bs := by
  have h := take_append_drop (width as) (as ++ bs)
  rw [take_width_append] at h
  exact List.append_cancel_left h

/-- The offset cuts no character and does not lie past the end. -/
def isBoundary (s : Text) (n : Nat) : Bool := width (take n s) == n

/-- The text of a span. -/
def slice (s : Text) (r : Span) : Text := take (r.stop - r.start) (drop r.start s)

/-- The text of a span whose ends are in order and cut no character. -/
def slice? (s : Text) (r : Span) : Option Text :=
  if r.start ≤ r.stop ∧ isBoundary s r.start ∧ isBoundary s r.stop then some (slice s r) else none

/-- The span can be cut out of the text. -/
def isWhole (s : Text) (r : Span) : Bool := (slice? s r).isSome

theorem isWhole_iff (s : Text) (r : Span) :
    isWhole s r = true ↔
      r.start ≤ r.stop ∧ isBoundary s r.start = true ∧ isBoundary s r.stop = true := by
  rw [isWhole, slice?]
  split <;> simp_all

theorem isBoundary_iff (s : Text) (n : Nat) :
    isBoundary s n = true ↔ ∃ as bs, s = as ++ bs ∧ width as = n := by
  simp only [isBoundary, beq_iff_eq]
  constructor
  · intro h
    exact ⟨take n s, drop n s, (take_append_drop n s).symm, h⟩
  · rintro ⟨as, bs, rfl, rfl⟩
    rw [take_width_append]

end Text

end ScriptLint
