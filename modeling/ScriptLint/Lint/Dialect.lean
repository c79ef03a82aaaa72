/-!
The dialect of a source file: its language, whether it may hold JSX, and how it is loaded. It is
read off the file name; a name with no extension that is known counts as a TypeScript module with
JSX.
-/
namespace ScriptLint

inductive Language where
  | javaScript | typeScript | declarations
  deriving DecidableEq, Repr

/-- How a file is loaded. A file of the ambiguous form is a module if it looks like one. -/
inductive LoadForm where
  | ambiguous | esModule | commonModule
  deriving DecidableEq, Repr

structure Dialect where
  language : Language
  form : LoadForm
  jsx : Bool
  deriving DecidableEq, Repr

/-- Split at every occurrence of a separator; the parts do not hold it. -/
def splitAtChar (sep : Char) : List Char → List (List Char)
  | [] => [[]]
  | c :: cs =>
    match splitAtChar sep cs with
    | [] => [[c]]
    | part :: parts => if c = sep then [] :: part :: parts else (c :: part) :: parts

/-- The last part of a path. A path that ends in the parent directory, or has no part but the
current directory, names no file. -/
def fileName? (path : String) : Option (List Char) :=
  match ((splitAtChar '/' path.toList).filter fun part => part ≠ [] ∧ part ≠ ['.']).getLast? with
  | some part => if part = ['.', '.'] then none else some part
  | none => none

namespace Dialect

def isTypeScript (d : Dialect) : Bool := d.language != .javaScript

def default : Dialect := ⟨.typeScript, .esModule, true⟩

/-- The dialect of a known extension. The parts of the name before it, split at dots, tell
declarations apart. -/
def ofExtension? (extension : String) (stem : List (List Char)) : Option Dialect :=
  let marked := 1 < stem.length ∧ stem.getLast? = some ['d']
  let typeScript (declares : Prop) [Decidable declares] : Language :=
    if declares then .declarations else .typeScript
  match extension with
  | "js" => some ⟨.javaScript, .ambiguous, false⟩
  | "jsx" => some ⟨.javaScript, .ambiguous, true⟩
  | "mjs" => some ⟨.javaScript, .esModule, false⟩
  | "cjs" => some ⟨.javaScript, .commonModule, false⟩
  | "ts" => some ⟨typeScript (['d'] ∈ stem.reverse.take 2), .ambiguous, false⟩
  | "tsx" => some ⟨.typeScript, .ambiguous, true⟩
  | "mts" => some ⟨typeScript marked, .esModule, false⟩
  | "cts" => some ⟨typeScript marked, .commonModule, false⟩
  | _ => none

/-- The extension is what follows the last dot; a name whose only dot comes first has none. -/
def ofPath (path : String) : Dialect :=
  match fileName? path with
  | none => default
  | some name =>
    let parts := splitAtChar '.' name
    let stem := parts.dropLast
    if stem = [] ∨ stem = [[]] then default
    else (ofExtension? (.ofList (parts.getLast?.getD [])) stem).getD default

end Dialect

end ScriptLint
