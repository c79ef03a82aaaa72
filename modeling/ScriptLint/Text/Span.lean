/-!
Byte spans of a source text. Offsets count UTF-8 bytes and a span is half open. Nothing forces
`start ≤ stop`: spans also arrive from outside, and whoever uses one judges it.
-/
namespace ScriptLint

structure Span where
  start : Nat
  stop : Nat
  deriving DecidableEq, Repr, Inhabited

namespace Span

def contains (s : Span) (offset : Nat) : Bool :=
  s.start ≤ offset && offset < s.stop

/-- The other span lies inside this one, ends included. -/
def covers (s t : Span) : Bool :=
  s.start ≤ t.start && t.stop ≤ s.stop

/-- Order by start, then by stop. -/
def le (s t : Span) : Bool :=
  s.start < t.start || (s.start == t.start && s.stop ≤ t.stop)

/-- The two spans share a byte. Empty spans at the rim of another share none. -/
def overlaps (s t : Span) : Bool :=
  s.start < t.stop && t.start < s.stop

/-- The form used in messages, such as `3..7`. -/
def text (s : Span) : String :=
  toString s.start ++ ".." ++ toString s.stop

theorem overlaps_comm (s t : Span) : s.overlaps t = t.overlaps s := by
  simp [overlaps, Bool.and_comm]

theorem covers_refl (s : Span) : s.covers s = true := by
  simp [covers]

theorem covers_trans {r s t : Span} (hrs : r.covers s = true) (hst : s.covers t = true) :
    r.covers t = true := by
  simp only [covers, Bool.and_eq_true, decide_eq_true_eq] at *
  omega

end Span

end ScriptLint
