import ScriptLint.Text.Bytes
import ScriptLint.Text.Hidden

/-!
Texts in double quotes, for people to read: a quote and a backslash are escaped, the common
controls have their letter, and a hidden character stands as its code point in hexadecimal.
-/
namespace ScriptLint.Text

/-- Lower-case hexadecimal digits without leading zeros. -/
def hex (n : Nat) : String := .ofList (Nat.toDigits 16 n)

def escape (c : Char) : String :=
  match c with
  | '"' => "\\\""
  | '\\' => "\\\\"
  | '\n' => "\\n"
  | '\r' => "\\r"
  | '\t' => "\\t"
  | '\x00' => "\\0"
  | c => if isHidden c then "\\u\x7b" ++ hex c.toNat ++ "\x7d" else c.toString

def quoted (s : Text) : String :=
  "\"" ++ String.join (s.map escape) ++ "\""

end ScriptLint.Text
