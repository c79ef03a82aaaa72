import ScriptLint.Json.Reader
import ScriptLint.Lint.Dialect

/-!
Options of a lint session, and their JSON text: an object with the options by name, or an array
with the options in order. What is not given keeps its default. Names that are not known are
skipped; a known name given twice is refused, and so is a value of the wrong type.
-/
namespace ScriptLint

structure Options where
  /-- How often a fix run may change the text. -/
  maxFixPasses : Nat := 10
  fileName : String := "input.tsx"
  deriving DecidableEq, Repr

namespace Options

def dialect (o : Options) : Dialect := .ofPath o.fileName

/-- The only value for the key, if it is given at all; refused when it is given twice. -/
def single? (key : String) (entries : List (String × Json)) : Option (Option Json) :=
  match entries.filter (·.1 == key) with
  | [] => some none
  | [(_, value)] => some (some value)
  | _ => none

def natural? : Option Json → Nat → Option Nat
  | none, fallback => some fallback
  | some (.natural n), _ => some n
  | some _, _ => none

def text? : Option Json → String → Option String
  | none, fallback => some fallback
  | some (.text s), _ => some s
  | some _, _ => none

def ofValues? (passes name : Option Json) : Option Options := do
  let defaults : Options := {}
  let maxFixPasses ← natural? passes defaults.maxFixPasses
  let fileName ← text? name defaults.fileName
  return { maxFixPasses, fileName }

def ofEntries? (entries : List (String × Json)) : Option Options := do
  let passes ← single? "maxFixPasses" entries
  let name ← single? "filename" entries
  ofValues? passes name

def ofItems? : List Json → Option Options
  | [] => ofValues? none none
  | [passes] => ofValues? (some passes) none
  | [passes, name] => ofValues? (some passes) (some name)
  | _ => none

/-- Values under unknown names are skipped over, the others are read strictly. -/
def readEntry (key : String) : Json.Reader Json := fun cs =>
  if key = "maxFixPasses" ∨ key = "filename" then Json.readValue false Json.maxDepth cs
  else Json.readValue true cs.length cs

def parse? (s : String) : Option Options := do
  let (options, rest) ← match Json.skipSpace s.toList with
    | '{' :: rest => do
      let (entries, rest) ← Json.readObject false readEntry rest
      some (← ofEntries? entries, rest)
    | '[' :: rest => do
      let (items, rest) ← Json.readArray (Json.readValue false Json.maxDepth) rest
      some (← ofItems? items, rest)
    | _ => none
  if Json.skipSpace rest = [] then some options else none

end Options

end ScriptLint
