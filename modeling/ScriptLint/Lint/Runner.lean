import ScriptLint.Lint.RuleSet
import ScriptLint.Report.LintReport
import ScriptLint.Selector.Cache
import ScriptLint.Selector.Match

/-!
Running rules over a document. The document is walked once, and every node goes to the rules with
a selector that accepts it. The selectors come from a cache that outlives the run.
-/
namespace ScriptLint

/-- A rule that waits for the nodes which a selector accepts. -/
structure Dispatch where
  rule : Rule
  selector : Selector
  deriving DecidableEq, Repr

/-- A rule once for every pattern of its own. -/
def Rule.patterns (rule : Rule) : List (Rule × String) := rule.selectors.map (rule, ·)

/-- Some pattern of the rule accepts the node. -/
def Rule.selects (rule : Rule) (doc : Document) (id : NodeId) : Bool :=
  rule.selectors.any fun pattern => (Selector.compile pattern).toOption.any (·.accepts doc id)

/-- The first cut that is not whole, of those that the rule makes for a node. -/
def Rule.brokenCut? (rule : Rule) (doc : Document) (id : NodeId) : Option Span :=
  ((rule.cuts doc id).find? fun cut => !Text.isWhole doc.source cut).filter fun _ =>
    rule.selects doc id

namespace Dispatch

/-- Compile the patterns in order. The first that does not compile ends it; those before it stay in
the cache. -/
def compileAll (cache : SelectorCache) :
    List (Rule × String) → Except SelectorError (List Dispatch) × SelectorCache
  | [] => (.ok [], cache)
  | (rule, pattern) :: rest =>
    match cache.getOrCompile pattern with
    | (.error error, cache) => (.error error, cache)
    | (.ok compiled, cache) =>
      match compileAll cache rest with
      | (.error error, cache) => (.error error, cache)
      | (.ok dispatches, cache) => (.ok (⟨rule, compiled.selector⟩ :: dispatches), cache)

/-- What the rules have to say about one node, in their order. -/
def checkNode (dispatches : List Dispatch) (doc : Document) (id : NodeId) : List Diagnostic :=
  dispatches.filterMap fun d =>
    if d.selector.accepts doc id then d.rule.check doc id else none

/-- What the rules have to say about the document, in visiting order. -/
def checkAll (dispatches : List Dispatch) (doc : Document) : List Diagnostic :=
  (doc.descendants Document.root).flatMap (checkNode dispatches doc)

end Dispatch

namespace RuleSet

/-- Give a diagnostic the severity set for its rule. -/
def withSeverity (rules : RuleSet) (d : Diagnostic) : Diagnostic :=
  match rules.severity? d.rule with
  | some severity => { d with severity }
  | none => d

/-- The report on a document. Diagnostics with equal spans keep the order in which they were
made. -/
def report (rules : RuleSet) (dispatches : List Dispatch) (doc : Document) : LintReport :=
  ⟨sortBy (fun a b => a.span.le b.span)
    ((Dispatch.checkAll dispatches doc).map rules.withSeverity)⟩

/-- Run the enabled rules. -/
def run (rules : RuleSet) (cache : SelectorCache) (doc : Document) :
    Except SelectorError LintReport × SelectorCache :=
  match Dispatch.compileAll cache (rules.enabled.flatMap Rule.patterns) with
  | (.error error, cache) => (.error error, cache)
  | (.ok dispatches, cache) => (.ok (rules.report dispatches doc), cache)

/-- The first cut that is not whole, in visiting order. There the run breaks off. -/
def brokenCut? (rules : RuleSet) (doc : Document) : Option Span :=
  (doc.descendants Document.root).findSome? fun id =>
    rules.enabled.findSome? fun rule => rule.brokenCut? doc id

end RuleSet

end ScriptLint
