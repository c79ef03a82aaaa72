/-!
Double-precision numbers with exact arithmetic. Every finite number is a whole multiple of the
smallest positive one, so it is kept as a sign and a count of such units; `one` is the count that
makes 1. A count is representable when it has at most 53 significant bits, and `nearest` rounds a
quotient to a representable count, a tie going to the even one. Counts from `bound` on are
infinite.
-/
namespace ScriptLint

inductive Binary64 where
  | nan
  | infinite (negative : Bool)
  | finite (negative : Bool) (units : Nat)
  deriving DecidableEq, Repr

namespace Binary64

/-- Units in the number 1. -/
def one : Nat := Nat.pow 2 1074

/-- The least count of units that is too large to be finite. -/
def bound : Nat := Nat.pow 2 2098

/-- Distance from a count to the next larger representable one. -/
def spacing (units : Nat) : Nat := Nat.pow 2 (units.log2 - 52)

/-- The whole number nearest to a quotient, a tie going to the even one. -/
def roundDiv (num den : Nat) : Nat :=
  let q := num / den
  let r := num % den
  if 2 * r < den ∨ (2 * r = den ∧ q % 2 = 0) then q else q + 1

/-- The representable count nearest to a quotient, a tie going to the even significand. -/
def nearest (num den : Nat) : Nat :=
  let step := spacing (num / den)
  roundDiv num (den * step) * step

def ofUnits (negative : Bool) (units : Nat) : Binary64 :=
  if units < bound then .finite negative units else .infinite negative

/-- The number nearest to a quotient of whole numbers. -/
def ofRatio (negative : Bool) (num den : Nat) : Binary64 :=
  ofUnits negative (nearest (num * one) den)

def ofNat (n : Nat) : Binary64 := ofRatio false n 1

def ofInt (i : Int) : Binary64 := ofRatio (i < 0) i.natAbs 1

/-- Place in the order of numbers; a number that is none has no place. -/
def rank? : Binary64 → Option Int
  | .nan => none
  | .infinite negative => some (if negative then -(bound : Int) else bound)
  | .finite negative units => some (if negative then -(units : Int) else units)

/-- Compare the places of two numbers; nothing holds of a number that is none. -/
def compareBy (test : Int → Int → Bool) (x y : Binary64) : Bool :=
  match x.rank?, y.rank? with
  | some a, some b => test a b
  | _, _ => false

/-- Numerical equality: the two zeros are equal. -/
def same (x y : Binary64) : Bool := compareBy (fun a b => a == b) x y

def lt (x y : Binary64) : Bool := compareBy (fun a b => a < b) x y

def le (x y : Binary64) : Bool := compareBy (fun a b => a ≤ b) x y

/-- The value as a whole number, where it is one. -/
def whole? : Binary64 → Option Int
  | .finite negative units =>
    if units % one = 0 then
      some (if negative then -((units / one : Nat) : Int) else ((units / one : Nat) : Int))
    else none
  | _ => none

theorem same_comm (x y : Binary64) : same x y = same y x := by
  unfold same compareBy
  cases x.rank? <;> cases y.rank? <;> simp [Bool.beq_comm]

end Binary64

end ScriptLint
