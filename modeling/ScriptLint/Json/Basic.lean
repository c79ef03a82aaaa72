import ScriptLint.Number.Shortest

/-!
JSON values as settings use them, and their compact text. Whole numbers in the range of 64 bits are
kept exactly, other numbers as doubles. The entries of an object stand in ascending order of their
keys, each key once.
-/
namespace ScriptLint

inductive Json where
  | null
  | bool (b : Bool)
  /-- A whole number below 2^64. -/
  | natural (n : Nat)
  /-- The number `-n`, for `n` from 1 to 2^63. -/
  | negative (n : Nat)
  | real (x : Binary64)
  | text (s : String)
  | array (items : List Json)
  | object (entries : List (String × Json))
  deriving Repr

namespace Json

/-- Put in an entry; one with the same key gives way. -/
def insertEntry (key : String) (value : Json) : List (String × Json) → List (String × Json)
  | [] => [(key, value)]
  | (k, v) :: rest =>
    if key < k then (key, value) :: (k, v) :: rest
    else if key = k then (key, value) :: rest
    else (k, v) :: insertEntry key value rest

/-- The object with the entries in the order they were given. -/
def ofEntries (entries : List (String × Json)) : Json :=
  .object (entries.foldl (fun acc e => insertEntry e.1 e.2 acc) [])

/-- Doubles: the shortest digits that read back, always with a point or an exponent. The exponent
form is used for numbers of 10^16 and more and for those below 10^-5; the exponent always has a
sign. -/
def realText (x : Binary64) : String :=
  match x with
  | .finite minus units =>
    let sign := if minus then "-" else ""
    if units = 0 then sign ++ "0.0"
    else
      let d := Binary64.shortest .even units
      let digits := Nat.toDigits 10 d.significand
      let point := (digits.length : Int) + d.exponent
      let body :=
        if 0 ≤ d.exponent ∧ point ≤ 16 then String.ofList (Binary64.layout d) ++ ".0"
        else if -5 < point ∧ point ≤ 16 then String.ofList (Binary64.layout d)
        else
          let power := (if 0 < point then "e+" else "e") ++ toString (point - 1)
          match digits with
          | [c] => String.ofList [c] ++ power
          | c :: rest => String.ofList (c :: '.' :: rest) ++ power
          | [] => ""
      sign ++ body
  | _ => "null"

def escape (c : Char) : String :=
  match c with
  | '"' => "\\\""
  | '\\' => "\\\\"
  | '\n' => "\\n"
  | '\r' => "\\r"
  | '\t' => "\\t"
  | '\x08' => "\\b"
  | '\x0c' => "\\f"
  | c =>
    if c.toNat < 0x20 then
      "\\u00" ++ String.ofList [Nat.digitChar (c.toNat / 16), Nat.digitChar (c.toNat % 16)]
    else c.toString

def quoted (s : String) : String := "\"" ++ String.join (s.toList.map escape) ++ "\""

mutual

def compact : Json → String
  | .null => "null"
  | .bool b => if b then "true" else "false"
  | .natural n => toString n
  | .negative n => "-" ++ toString n
  | .real x => realText x
  | .text s => quoted s
  | .array items => "[" ++ ",".intercalate (compactItems items) ++ "]"
  | .object entries => "\x7b" ++ ",".intercalate (compactEntries entries) ++ "\x7d"

def compactItems : List Json → List String
  | [] => []
  | v :: rest => compact v :: compactItems rest

def compactEntries : List (String × Json) → List String
  | [] => []
  | (k, v) :: rest => (quoted k ++ ":" ++ compact v) :: compactEntries rest

end

end Json

end ScriptLint
