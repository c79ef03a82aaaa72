import ScriptLint.Number.Binary64
import ScriptLint.Text.Bytes

/-!
The shortest decimal of a number. All decimals between the midpoints to the two neighbours read
back as the number, the midpoints themselves when its significand is even. Of those with the fewest
digits `shortest` takes the one nearest to the number. It tests, for one digit, two digits and so
on, the two decimals of that many digits around the number; seventeen digits always suffice.
-/
namespace ScriptLint

/-- The number `significand * 10 ^ exponent`. -/
structure Decimal where
  significand : Nat
  exponent : Int
  deriving DecidableEq, Repr

/-- Which of two equally near decimals is taken. -/
inductive Tie where
  | up | even
  deriving DecidableEq, Repr

namespace Binary64

/-- The decimals that read back as a count of units, in quarters of a unit. -/
structure Interval where
  low : Nat
  high : Nat
  closed : Bool

def interval (units : Nat) : Interval :=
  let step := spacing units
  let gap := if units = step * Nat.pow 2 52 ∧ 1 < step then step / 2 else step
  ⟨4 * units - 2 * gap, 4 * units + 2 * step, units / step % 2 == 0⟩

/-- Exponent of the leading decimal digit of a positive count of units. -/
def magnitude (units : Nat) : Int :=
  ((Nat.toDigits 10 (units * Nat.pow 10 400 / one)).length : Int) - 401

/-- Of the two neighbours of a count on the grid of step `10 ^ exponent`, the one to take. -/
def onGrid? (tie : Tie) (units : Nat) (exponent : Int) : Option Decimal :=
  let scale := Nat.pow 10 (-exponent).toNat
  let num := units * scale
  let den := one * Nat.pow 10 exponent.toNat
  let range := interval units
  let inside (d : Nat) : Bool :=
    let x := 4 * den * d
    if range.closed then range.low * scale ≤ x && x ≤ range.high * scale
    else range.low * scale < x && x < range.high * scale
  let down := num / den
  let below := num - down * den
  let above := (down + 1) * den - num
  let goesUp := above < below ||
    (above == below && (match tie with | .up => true | .even => down % 2 == 1))
  match inside down, inside (down + 1) with
  | true, true => some ⟨if goesUp then down + 1 else down, exponent⟩
  | true, false => some ⟨down, exponent⟩
  | false, true => some ⟨down + 1, exponent⟩
  | false, false => none

/-- Drop zeros at the end of the significand, at most `fuel` of them. -/
def stripZeros : Nat → Decimal → Decimal
  | 0, d => d
  | fuel + 1, d =>
    if d.significand ≠ 0 ∧ d.significand % 10 = 0 then
      stripZeros fuel ⟨d.significand / 10, d.exponent + 1⟩
    else d

/-- The decimal with the fewest digits that reads back as the count. -/
def shortest (tie : Tie) (units : Nat) : Decimal :=
  let top := magnitude units
  let found := (List.range 17).findSome? fun n => onGrid? tie units (top - (n : Nat))
  stripZeros 17 (found.getD ⟨0, 0⟩)

/-- All digits of a decimal, with a point where one is needed and never an exponent. -/
def layout (d : Decimal) : Text :=
  let digits := Nat.toDigits 10 d.significand
  let zeros (n : Nat) := List.replicate n '0'
  if 0 ≤ d.exponent then digits ++ zeros d.exponent.toNat
  else
    let places := (-d.exponent).toNat
    if places < digits.length then
      let whole := digits.length - places
      digits.take whole ++ '.' :: digits.drop whole
    else '0' :: '.' :: (zeros (places - digits.length) ++ digits)

/-- The text of a number: the shortest digits that read back, without an exponent. -/
def text : Binary64 → Text
  | .nan => "NaN".toList
  | .infinite negative => if negative then "-inf".toList else "inf".toList
  | .finite negative units =>
    let body := if units = 0 then ['0'] else layout (shortest .up units)
    if negative then '-' :: body else body

end Binary64

end ScriptLint
