import ScriptLint.Number.Binary64
import ScriptLint.Text.Bytes

/-!
Reading numbers. A decimal is an optional sign, digits with an optional point and an optional
exponent, or one of the words for infinity and for a number that is none, in any case; blanks and
digit separators are not part of it. It is read to the nearest number. Numeric literals of a
program may also have a radix, separators and a big-integer mark.
-/
namespace ScriptLint.Number

/-- Sign and rest of a text; without a sign it is positive. -/
def splitSign : Text → Bool × Text
  | '+' :: rest => (false, rest)
  | '-' :: rest => (true, rest)
  | cs => (false, cs)

def digitValue? (c : Char) : Option Nat :=
  if c.isDigit then some (c.toNat - '0'.toNat)
  else if 'a' ≤ c ∧ c ≤ 'z' then some (c.toNat - 'a'.toNat + 10)
  else if 'A' ≤ c ∧ c ≤ 'Z' then some (c.toNat - 'A'.toNat + 10)
  else none

/-- Value of a text whose characters are all digits of the radix. -/
def digits? (radix : Nat) : Text → Option Nat :=
  List.foldlM (fun n c => do
    let d ← digitValue? c
    if d < radix then some (radix * n + d) else none) 0

/-- The number nearest to `significand * 10 ^ exponent`. A decimal point far out on either side
settles the value without computing the power. -/
def ofDecimal (negative : Bool) (significand : Nat) (exponent : Int) : Binary64 :=
  let top := ((Nat.toDigits 10 significand).length : Int) + exponent
  if significand = 0 ∨ top < -330 then .finite negative 0
  else if 310 < top then .infinite negative
  else .ofRatio negative (significand * Nat.pow 10 exponent.toNat) (Nat.pow 10 (-exponent).toNat)

/-- The exponent part: nothing, or a mark, an optional sign and digits. -/
def exponent? : Text → Option Int
  | [] => some 0
  | c :: rest =>
    if c = 'e' ∨ c = 'E' then
      let (negative, body) := splitSign rest
      if body = [] then none
      else (digits? 10 body).map fun n => if negative then -(n : Int) else n
    else none

/-- Digits with an optional point and exponent. -/
def unsigned? (negative : Bool) (cs : Text) : Option Binary64 := do
  let whole := cs.takeWhile Char.isDigit
  let rest := cs.dropWhile Char.isDigit
  let (fraction, tail) := match rest with
    | '.' :: more => (more.takeWhile Char.isDigit, more.dropWhile Char.isDigit)
    | _ => ([], rest)
  if whole ++ fraction = [] then none
  let significand ← digits? 10 (whole ++ fraction)
  let exponent ← exponent? tail
  some (ofDecimal negative significand (exponent - fraction.length))

/-- Read a decimal or a word for a special value. -/
def read? (s : Text) : Option Binary64 :=
  let (negative, body) := splitSign s
  let word := String.ofList (body.map Char.toLower)
  if word = "inf" ∨ word = "infinity" then some (.infinite negative)
  else if word = "nan" then some .nan
  else unsigned? negative body

/-- A position in a list: an optional plus sign and digits, below 2^64. -/
def index? (s : Text) : Option Nat := do
  let body := match s with
    | '+' :: rest => rest
    | cs => cs
  if body = [] then none
  let n ← digits? 10 body
  if n < Nat.pow 2 64 then some n else none

/-- A signed whole number in a radix, in the range of 64 bits. -/
def radix? (radix : Nat) (cs : Text) : Option Int := do
  let (negative, body) := splitSign cs
  if body = [] then none
  let n ← digits? radix body
  if negative then (if n ≤ Nat.pow 2 63 then some (-(n : Int)) else none)
  else (if n < Nat.pow 2 63 then some (n : Int) else none)

/-- The value of a numeric literal as it stands in a program. Separators are dropped and so are
big-integer marks at the end. -/
def literal? (raw : Text) : Option Binary64 :=
  let cleaned := ((raw.filter (· != '_')).reverse.dropWhile (· == 'n')).reverse
  let inRadix (radix : Nat) (cs : Text) := (radix? radix cs).map .ofInt
  match cleaned with
  | '0' :: mark :: rest =>
    if mark = 'x' ∨ mark = 'X' then inRadix 16 rest
    else if mark = 'o' ∨ mark = 'O' then inRadix 8 rest
    else if mark = 'b' ∨ mark = 'B' then inRadix 2 rest
    else read? cleaned
  | _ => read? cleaned

end ScriptLint.Number
