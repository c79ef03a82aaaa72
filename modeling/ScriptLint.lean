import ScriptLint.Edit
import ScriptLint.Json.Basic
import ScriptLint.Json.Reader
import ScriptLint.Lint.Dialect
import ScriptLint.Lint.Options
import ScriptLint.Lint.RuleSet
import ScriptLint.Lint.Runner
import ScriptLint.Lint.Session
import ScriptLint.Lint.Settings
import ScriptLint.Number.Binary64
import ScriptLint.Number.Reader
import ScriptLint.Number.Shortest
import ScriptLint.Report.Diagnostic
import ScriptLint.Report.LintReport
import ScriptLint.Report.Template
import ScriptLint.Revision.Collapse
import ScriptLint.Revision.Relocate
import ScriptLint.Rule
import ScriptLint.Rule.MaxParams
import ScriptLint.Rule.Reexport
import ScriptLint.Rule.SingleLine
import ScriptLint.Rule.SingleUseType
import ScriptLint.Rule.TypesBeforeUse
import ScriptLint.Scope.Alias
import ScriptLint.Scope.Binding
import ScriptLint.Scope.Naming
import ScriptLint.Scope.Reference
import ScriptLint.Selector.Basic
import ScriptLint.Selector.Cache
import ScriptLint.Selector.Match
import ScriptLint.Selector.Parser
import ScriptLint.StableSort
import ScriptLint.Text.Blank
import ScriptLint.Text.Bytes
import ScriptLint.Text.Cell
import ScriptLint.Text.Hidden
import ScriptLint.Text.Line
import ScriptLint.Text.Quoted
import ScriptLint.Text.Span
import ScriptLint.Token
import ScriptLint.Tree.Attribute
import ScriptLint.Tree.Document
import ScriptLint.Tree.Element
import ScriptLint.Tree.Kind
import ScriptLint.Tree.Layout
import ScriptLint.Tree.TokenRange
import ScriptLint.Tree.Walk
import ScriptLint.Proofs.Edit.Acceptance
import ScriptLint.Proofs.Edit.Splice
import ScriptLint.Proofs.Token.Order
import ScriptLint.Proofs.Tree.Exact
import ScriptLint.Proofs.Token.Ranges
import ScriptLint.Proofs.Revision.Collapse
import ScriptLint.Proofs.Revision.CommentBlock
import ScriptLint.Proofs.Revision.Relocate
import ScriptLint.Proofs.Rule.Faithful
import ScriptLint.Proofs.Rule.Cuts
import ScriptLint.Proofs.Lint.FixRun
import ScriptLint.Proofs.Lint.Pass
import ScriptLint.Proofs.Lint.FixSafety
import ScriptLint.Proofs.Lint.Memory
import ScriptLint.Proofs.Lint.FixContract
import ScriptLint.Proofs.Edit.Crowding
import ScriptLint.Proofs.Lint.LineLimit
import ScriptLint.Proofs.Tree.Shape
import ScriptLint.Proofs.Tree.Visits
import ScriptLint.Proofs.Tree.Walks
import ScriptLint.Proofs.Selector.Meaning
import ScriptLint.Proofs.Selector.Grammar
import ScriptLint.Proofs.Selector.Reading
import ScriptLint.Proofs.Selector.Printing
import ScriptLint.Proofs.Text.Cells
import ScriptLint.Proofs.Token.Scan
import ScriptLint.Proofs.Token.Partition
import ScriptLint.Proofs.Token.Reserved
import ScriptLint.Proofs.Rule.Dispatch
import ScriptLint.Proofs.Lint.Independence
import ScriptLint.Proofs.Selector.Requests
import ScriptLint.Proofs.Lint.Calls
import ScriptLint.Proofs.Edit.OneByOne
import ScriptLint.Proofs.Lint.Selection
import ScriptLint.Proofs.Revision.Move
import ScriptLint.Proofs.Rule.Placement
import ScriptLint.Proofs.Revision.Members
import ScriptLint.Proofs.Rule.LineLength
import ScriptLint.Proofs.Rule.Upward
import ScriptLint.Proofs.Tree.Slots
import ScriptLint.Proofs.Selector.Failures
import ScriptLint.Proofs.Selector.Words
import ScriptLint.Proofs.Scope.Exports
import ScriptLint.Proofs.Scope.Declarations
import ScriptLint.Proofs.Scope.AliasChain
import ScriptLint.Proofs.Scope.References
import ScriptLint.Proofs.Rule.Recursion
import ScriptLint.Proofs.Lint.Entries
import ScriptLint.Proofs.Number.Whole
import ScriptLint.Proofs.Tree.Attributes
import ScriptLint.Proofs.Rule.Findings
import ScriptLint.Proofs.Rule.ParamCount
import ScriptLint.Proofs.Rule.Reexports
import ScriptLint.Proofs.Token.Spread
import ScriptLint.Proofs.Tree.Operators
import ScriptLint.Proofs.Report.Substitution
import ScriptLint.Proofs.Tree.Innermost
