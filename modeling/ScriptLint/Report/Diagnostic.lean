import ScriptLint.Edit
import ScriptLint.Report.Template

/-!
What a rule has to say about a place in a file, and the fixes it offers. A fix is a list of edits
that are applied together or not at all.
-/
namespace ScriptLint

inductive Severity where
  | error | warning | info | hint
  deriving DecidableEq, Repr

structure Fix where
  edits : List Edit
  message : Option String
  deriving DecidableEq, Repr

namespace Fix

def ofEdits (edits : List Edit) : Fix := ⟨edits, none⟩

/-- Replace one span. -/
def replace (span : Span) (text : Text) : Fix := ofEdits [⟨span, text⟩]

def withMessage (f : Fix) (message : String) : Fix := { f with message := some message }

/-- From the first start to the last stop of the edits; the empty span at 0 without edits. -/
def span (f : Fix) : Span :=
  ⟨(f.edits.map (·.span.start)).min?.getD 0, (f.edits.map (·.span.stop)).max?.getD 0⟩

/-- Some edit of one fix overlaps some edit of the other. -/
def overlaps (f g : Fix) : Bool := f.edits.any fun a => g.edits.any fun b => a.overlaps b

end Fix

/-- A related place and what is said about it. -/
structure Label where
  span : Span
  text : String
  deriving DecidableEq, Repr

structure Diagnostic where
  rule : String
  messageId : Option String
  span : Span
  message : String
  values : Report.Values
  help : Option String
  severity : Severity
  labels : List Label
  fixes : List Fix
  deriving DecidableEq, Repr

namespace Diagnostic

/-- A bare diagnostic; its severity is a warning until something else is said. -/
def plain (rule : String) (span : Span) (message : String) : Diagnostic where
  rule := rule
  messageId := none
  span := span
  message := message
  values := []
  help := none
  severity := .warning
  labels := []
  fixes := []

/-- A diagnostic whose message is filled in from a template. -/
def ofTemplate (rule : String) (span : Span) (messageId template : String)
    (values : Report.Values) : Diagnostic :=
  { plain rule span (Report.render template values) with messageId := some messageId, values }

def withHelp (d : Diagnostic) (help : String) : Diagnostic := { d with help := some help }

def withSeverity (d : Diagnostic) (severity : Severity) : Diagnostic := { d with severity }

def withLabel (d : Diagnostic) (span : Span) (text : String) : Diagnostic :=
  { d with labels := d.labels ++ [⟨span, text⟩] }

def withFix (d : Diagnostic) (fix : Fix) : Diagnostic := { d with fixes := d.fixes ++ [fix] }

/-- The first template value with the key. -/
def value? (d : Diagnostic) (key : String) : Option String := d.values.lookup key

end Diagnostic

end ScriptLint
