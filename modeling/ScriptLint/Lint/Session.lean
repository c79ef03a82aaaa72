import ScriptLint.Lint.Options
import ScriptLint.Lint.Runner

/-!
Lint sessions. A session has options, rules and the selectors compiled so far; the parser is given
with each call. A file is linted by parsing, indexing and running the rules. It is fixed by linting
it, applying a choice of the fixes offered, and starting again with the changed text, until no fix
is left or the number of passes is used up.
-/
namespace ScriptLint

/-- What ends the analysis of a file. A crash is no answer: the run breaks off at a cut that is not
whole. -/
inductive LintError where
  | parse (messages : List String)
  | tree (error : TreeError)
  | selector (error : SelectorError)
  | edit (error : EditError)
  | crash (cut : Span)
  deriving DecidableEq, Repr

def LintError.message : LintError → String
  | .parse messages => "failed to parse source: " ++ "; ".intercalate messages
  | .tree error => error.message
  | .selector error => error.message
  | .edit error => error.message
  | .crash cut => "cannot cut the source at " ++ cut.text

/-- Parse a text and index it. -/
def Document.ofText (parser : Parser) (source : Text) : Except LintError Document :=
  match parser source with
  | .error messages => .error (.parse messages)
  | .ok file =>
    match Document.build source file true with
    | .error error => .error (.tree error)
    | .ok doc => .ok doc

namespace Fix

/-- Go through the fixes in order and keep those that overlap none kept before. -/
def keepDisjoint (kept : List Fix) : List Fix → List Fix
  | [] => []
  | fix :: rest =>
    if kept.any (·.overlaps fix) then keepDisjoint kept rest
    else fix :: keepDisjoint (kept ++ [fix]) rest

/-- The first fix of every diagnostic, in order of place. -/
def candidates (diagnostics : List Diagnostic) : List Fix :=
  sortBy (fun a b => a.span.start ≤ b.span.start) (diagnostics.filterMap (·.fixes.head?))

/-- The fixes applied in one pass. Those left out have their turn in a later one. -/
def select (diagnostics : List Diagnostic) : List Fix := keepDisjoint [] (candidates diagnostics)

/-- The edits of the selected fixes. -/
def selectEdits (diagnostics : List Diagnostic) : List Edit :=
  (select diagnostics).flatMap (·.edits)

end Fix

structure FixResult where
  output : Text
  /-- How often the text was changed. -/
  passes : Nat
  /-- What is still reported about the output. -/
  diagnostics : List Diagnostic
  deriving DecidableEq, Repr

def FixResult.isClean (result : FixResult) : Bool := result.diagnostics.isEmpty

structure Session where
  options : Options := {}
  rules : RuleSet := .standard
  cache : SelectorCache := .empty
  deriving DecidableEq, Repr

namespace Session

def lint (session : Session) (parser : Parser) (source : Text) :
    Except LintError LintReport × Session :=
  match Document.ofText parser source with
  | .error error => (.error error, session)
  | .ok doc =>
    match session.rules.run session.cache doc with
    | (.error error, cache) => (.error (.selector error), { session with cache })
    | (.ok report, cache) =>
      match session.rules.brokenCut? doc with
      | some cut => (.error (.crash cut), { session with cache })
      | none => (.ok report, { session with cache })

/-- Lint the text and, while edits are on offer and passes remain, go on with the changed text. -/
def fixLoop (session : Session) (parser : Parser) :
    (remaining passes : Nat) → Text → Except LintError FixResult × Session
  | 0, passes, text =>
    match session.lint parser text with
    | (.error error, session) => (.error error, session)
    | (.ok report, session) => (.ok ⟨text, passes, report.diagnostics⟩, session)
  | remaining + 1, passes, text =>
    match session.lint parser text with
    | (.error error, session) => (.error error, session)
    | (.ok report, session) =>
      match Fix.selectEdits report.diagnostics with
      | [] => (.ok ⟨text, passes, report.diagnostics⟩, session)
      | edits =>
        match Edit.applyAll text edits with
        | .error error => (.error (.edit error), session)
        | .ok next => session.fixLoop parser remaining (passes + 1) next

def fix (session : Session) (parser : Parser) (source : Text) :
    Except LintError FixResult × Session :=
  session.fixLoop parser session.options.maxFixPasses 0 source

end Session

end ScriptLint
