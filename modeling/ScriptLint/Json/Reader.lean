import ScriptLint.Json.Basic
import ScriptLint.Number.Reader

/-!
Reading JSON text. The reader is strict: no comments, no spare commas, no raw control characters, no
unpaired surrogates, no number too large for a double, and arrays and objects nest at most `depth`
deep. Values that are only skipped are read leniently: their syntax is the same, but surrogates,
the size of numbers and the depth are not looked at.

A number with a point or an exponent is made from the leading digits that fit into 64 bits and one
power of ten, so it may miss the nearest double in the last place.
-/
namespace ScriptLint.Json

abbrev Reader (α : Type) := List Char → Option (α × List Char)

def isSpace (c : Char) : Bool := c == ' ' || c == '\n' || c == '\t' || c == '\r'

def skipSpace (cs : List Char) : List Char := cs.dropWhile isSpace

/-- Four hexadecimal digits. -/
def hex4? (a b c d : Char) : Option Nat := Number.digits? 16 [a, b, c, d]

def simpleEscape? : Char → Option Char
  | '"' => some '"'
  | '\\' => some '\\'
  | '/' => some '/'
  | 'b' => some '\x08'
  | 'f' => some '\x0c'
  | 'n' => some '\n'
  | 'r' => some '\r'
  | 't' => some '\t'
  | _ => none

/-- The rest of a text after its opening quote. The characters read so far come last first. -/
def readText (lenient : Bool) (acc : List Char) : Reader String
  | '"' :: rest => some (.ofList acc.reverse, rest)
  | '\\' :: 'u' :: a :: b :: c :: d :: rest =>
    match hex4? a b c d with
    | none => none
    | some n =>
      if n < 0xD800 ∨ 0xDFFF < n ∨ lenient then readText lenient (Char.ofNat n :: acc) rest
      else if 0xDC00 ≤ n then none
      else
        match rest with
        | '\\' :: 'u' :: e :: f :: g :: h :: rest =>
          match hex4? e f g h with
          | none => none
          | some low =>
            if 0xDC00 ≤ low ∧ low ≤ 0xDFFF then
              let code := 0x10000 + (n - 0xD800) * 0x400 + (low - 0xDC00)
              readText lenient (Char.ofNat code :: acc) rest
            else none
        | _ => none
  | '\\' :: c :: rest =>
    match simpleEscape? c with
    | some e => readText lenient (e :: acc) rest
    | none => none
  | c :: rest => if c == '\\' || c.toNat < 0x20 then none else readText lenient (c :: acc) rest
  | [] => none

/-- Add digits to a significand as long as it stays below 2^64; the rest is left. -/
def absorb (significand : Nat) : List Char → Nat × List Char
  | [] => (significand, [])
  | c :: rest =>
    let next := 10 * significand + (c.toNat - '0'.toNat)
    if next < Nat.pow 2 64 then absorb next rest else (significand, c :: rest)

/-- The double made from a significand and a power of ten, in units. Powers below 10^-308 take
several steps, of which three already leave nothing. -/
def scale? (fuel : Nat) (units : Nat) (exponent : Int) : Option Nat :=
  if exponent.natAbs ≤ 308 then
    let power := Binary64.nearest (Nat.pow 10 exponent.natAbs * Binary64.one) 1
    if 0 ≤ exponent then
      let product := Binary64.nearest (units * power) Binary64.one
      if product < Binary64.bound then some product else none
    else some (Binary64.nearest (units * Binary64.one) power)
  else if units = 0 then some 0
  else if 0 ≤ exponent then none
  else
    match fuel with
    | 0 => some 0
    | fuel + 1 =>
      let power := Binary64.nearest (Nat.pow 10 308 * Binary64.one) 1
      scale? fuel (Binary64.nearest (units * Binary64.one) power) (exponent + 308)

/-- A double from the digits before and after the point and the written exponent. -/
def real? (minus : Bool) (whole fraction : List Char) (exponent : Int) : Option Json :=
  let (front, spare) := absorb 0 whole
  let (significand, unused) := absorb front fraction
  let shift : Int := (spare.length : Int) - (fraction.length - unused.length : Nat)
  if exponent.natAbs > Nat.pow 2 31 - 1 then
    if significand ≠ 0 ∧ 0 < exponent then none else some (.real (.finite minus 0))
  else
    (scale? 3 (Binary64.nearest (significand * Binary64.one) 1) (shift + exponent)).map
      fun units => .real (.finite minus units)

/-- A number written without point and exponent. -/
def whole? (minus : Bool) (digits : List Char) : Option Json :=
  let n := (Number.digits? 10 digits).getD 0
  if Nat.pow 2 64 ≤ n then real? minus digits [] 0
  else if !minus then some (.natural n)
  else if n = 0 ∨ Nat.pow 2 63 < n then
    some (.real (.finite true (Binary64.nearest (n * Binary64.one) 1)))
  else some (.negative n)

/-- The exponent of a number: nothing, or a mark, an optional sign and at least one digit. -/
def readExponent : Reader (Option Int)
  | c :: rest =>
    if c = 'e' ∨ c = 'E' then
      let (minus, body) := Number.splitSign rest
      let digits := body.takeWhile Char.isDigit
      if digits = [] then none
      else
        let n := (Number.digits? 10 digits).getD 0
        some (some (if minus then -(n : Int) else n), body.dropWhile Char.isDigit)
    else some (none, c :: rest)
  | [] => some (none, [])

def readNumber (lenient : Bool) : Reader Json := fun cs => do
  let (minus, body) := match cs with
    | '-' :: rest => (true, rest)
    | _ => (false, cs)
  let whole := body.takeWhile Char.isDigit
  let rest := body.dropWhile Char.isDigit
  if whole = [] ∨ (whole.head? = some '0' ∧ 1 < whole.length) then none
  let (fraction, rest) ← match rest with
    | '.' :: more =>
      let digits := more.takeWhile Char.isDigit
      if digits = [] then none else some (digits, more.dropWhile Char.isDigit)
    | _ => some ([], rest)
  let (exponent, rest) ← readExponent rest
  let value := match fraction, exponent with
    | [], none => whole? minus whole
    | _, _ => real? minus whole fraction (exponent.getD 0)
  if lenient then some (value.getD .null, rest) else value.map (·, rest)

/-- Anything but an array or an object. -/
def readScalar (lenient : Bool) : Reader Json := fun cs =>
  match cs with
  | 'n' :: 'u' :: 'l' :: 'l' :: rest => some (.null, rest)
  | 't' :: 'r' :: 'u' :: 'e' :: rest => some (.bool true, rest)
  | 'f' :: 'a' :: 'l' :: 's' :: 'e' :: rest => some (.bool false, rest)
  | '"' :: rest => (readText lenient [] rest).map fun (s, rest) => (.text s, rest)
  | _ => readNumber lenient cs

/-- One item or more and the closing bracket. -/
def readItems (value : Reader α) : Nat → Reader (List α)
  | 0, _ => none
  | fuel + 1, cs => do
    let (v, rest) ← value cs
    match skipSpace rest with
    | ']' :: rest => some ([v], rest)
    | ',' :: rest => (readItems value fuel rest).map fun (vs, rest) => (v :: vs, rest)
    | _ => none

/-- The rest of an array after its opening bracket. -/
def readArray (value : Reader α) : Reader (List α) := fun cs =>
  match skipSpace cs with
  | ']' :: rest => some ([], rest)
  | _ => readItems value cs.length cs

/-- One entry or more and the closing brace. How a value is read may depend on its key. -/
def readEntries (lenient : Bool) (value : String → Reader α) : Nat → Reader (List (String × α))
  | 0, _ => none
  | fuel + 1, cs =>
    match skipSpace cs with
    | '"' :: rest => do
      let (key, rest) ← readText lenient [] rest
      match skipSpace rest with
      | ':' :: rest =>
        let (v, rest) ← value key rest
        match skipSpace rest with
        | '}' :: rest => some ([(key, v)], rest)
        | ',' :: rest =>
          (readEntries lenient value fuel rest).map fun (es, rest) => ((key, v) :: es, rest)
        | _ => none
      | _ => none
    | _ => none

/-- The rest of an object after its opening brace. -/
def readObject (lenient : Bool) (value : String → Reader α) : Reader (List (String × α)) :=
  fun cs =>
  match skipSpace cs with
  | '}' :: rest => some ([], rest)
  | _ => readEntries lenient value cs.length cs

/-- A value in which arrays and objects nest at most `depth` deep. -/
def readValue (lenient : Bool) : (depth : Nat) → Reader Json
  | 0, cs => readScalar lenient (skipSpace cs)
  | depth + 1, cs =>
    match skipSpace cs with
    | '[' :: rest =>
      (readArray (readValue lenient depth) rest).map fun (vs, rest) => (.array vs, rest)
    | '{' :: rest =>
      (readObject lenient (fun _ => readValue lenient depth) rest).map
        fun (es, rest) => (ofEntries es, rest)
    | cs => readScalar lenient cs

/-- Arrays and objects nest at most so deep. -/
def maxDepth : Nat := 127

/-- A value and nothing but space after it. -/
def parse? (s : String) : Option Json := do
  let (v, rest) ← readValue false maxDepth s.toList
  if skipSpace rest = [] then some v else none

end ScriptLint.Json
