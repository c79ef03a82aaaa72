import ScriptLint.Text.Blank

/-!
Message templates. A placeholder is a key between two opening and two closing braces; blanks around
the key do not count. It stands for the first value with that key and, where there is none, for
itself. The template is read once from left to right and inserted values are not read again.
-/
namespace ScriptLint.Report

/-- Template values by key. -/
abbrev Values := List (String × String)

/-- The text a placeholder stands for. The key comes as it is written, blanks included. -/
def placeholder (values : Values) (key : Text) : Text :=
  match values.lookup (String.ofList (Text.trim key)) with
  | some value => value.toList
  | none => '{' :: '{' :: key ++ ['}', '}']

/-- Fill the rest of a template. Inside a placeholder the key read so far comes along, last
character first. -/
def fill (values : Values) : Option Text → Text → Text
  | none, '{' :: '{' :: rest => fill values (some []) rest
  | none, c :: rest => c :: fill values none rest
  | none, [] => []
  | some key, '}' :: '}' :: rest => placeholder values key.reverse ++ fill values none rest
  | some key, c :: rest => fill values (some (c :: key)) rest
  | some key, [] => '{' :: '{' :: key.reverse

def render (template : String) (values : Values) : String :=
  .ofList (fill values none template.toList)

end ScriptLint.Report
