import ScriptLint.Proofs.Edit.Crowding
import ScriptLint.Proofs.Lint.FixContract
import ScriptLint.Proofs.Lint.Pass
import ScriptLint.Proofs.Rule.LineLength

/-!
The line limit of `prefer-single-line` over whole fix runs. The rule measures the line that a
construct makes in the text as it stands, one construct at a time, while a pass collapses all that do
not overlap. So the limit holds as long as no two constructs collapsed in one pass come to stand on
one line, and with up to `k` of them on a line the lines have at most `k` times as many characters
(`Session.fix_linesWithin`). Two on a line do go past the limit (`Session.fix_exceeds_limit`).
-/
namespace ScriptLint

/-- Only `prefer-single-line` is enabled, with a line limit. -/
def RuleSet.onlySingleLine (limit : Nat) (severities : List (String × Severity)) : RuleSet :=
  { RuleSet.empty with singleLine := some ⟨some limit⟩, severities }

/-- Each dispatch comes from one of the patterns. -/
theorem Dispatch.mem_of_compileAll {patterns : List (Rule × String)} {cache : SelectorCache}
    {dispatches : List Dispatch} (h : (compileAll cache patterns).1 = .ok dispatches) :
    ∀ d ∈ dispatches, ∃ pattern, (d.rule, pattern) ∈ patterns := by
  induction patterns generalizing cache dispatches with
  | nil =>
    cases h
    simp
  | cons entry rest ih =>
    obtain ⟨rule, pattern⟩ := entry
    rw [compileAll] at h
    split at h
    · cases h
    · split at h
      · cases h
      · rename_i later _ hlater
        cases h
        intro d hd
        rcases List.mem_cons.mp hd with rfl | hd
        · exact ⟨pattern, List.mem_cons_self⟩
        · obtain ⟨other, hother⟩ := ih (by rw [hlater]) d hd
          exact ⟨other, List.mem_cons_of_mem _ hother⟩

/-- An edit that was measured fits the limit. -/
theorem SingleLine.fitsLine {limit : Nat} {doc : Document} {id : NodeId} {collapsed : Text}
    (hcollapsed : doc.collapse? id = some collapsed)
    (hfits : SingleLine.fits ⟨some limit⟩ doc id collapsed = true)
    (hspan : Edit.Fits doc.source ⟨doc.span id, collapsed⟩) :
    Edit.FitsLine limit doc.source ⟨doc.span id, collapsed⟩ := by
  refine ⟨Document.feed_not_mem_collapse? hcollapsed, ?_⟩
  simp only [fits, decide_eq_true_eq,
    lineLength_eq ⟨hspan.start_exact, hspan.stop_exact⟩] at hfits
  exact hfits

namespace Session

variable {options : Options} {severities : List (String × Severity)} {limit n : Nat}
  {session : Session} {parser : Parser} {text changed : Text} {report : LintReport}

/-- Every diagnostic of a report is what an enabled rule says about a node, but for its severity. -/
theorem exists_check_of_mem_lint (h : (session.lint parser text).1 = .ok report) :
    ∃ doc, doc.source = text ∧ ∀ d ∈ report.diagnostics, ∃ rule ∈ session.rules.enabled,
      ∃ id made, rule.check doc id = some made ∧ d.fixes = made.fixes := by
  obtain ⟨doc, dispatches, hdoc, hcompiled, rfl⟩ := lint_eq_ok h
  refine ⟨doc, Document.ofText_source hdoc, ?_⟩
  intro d hd
  rw [RuleSet.report, mem_sortBy, List.mem_map] at hd
  obtain ⟨made, hmade, rfl⟩ := hd
  obtain ⟨id, _, hnode⟩ := List.mem_flatMap.mp hmade
  obtain ⟨dispatch, hdispatch, hcheck⟩ := List.mem_filterMap.mp hnode
  obtain ⟨pattern, hpattern⟩ := Dispatch.mem_of_compileAll hcompiled dispatch hdispatch
  obtain ⟨rule, hrule, hmem⟩ := List.mem_flatMap.mp hpattern
  obtain ⟨_, _, heq⟩ := List.mem_map.mp hmem
  split at hcheck
  · refine ⟨dispatch.rule, ?_, id, made, hcheck, ?_⟩
    · rw [← (Prod.mk.inj heq).1]
      exact hrule
    · rw [RuleSet.withSeverity]
      split <;> rfl
  · cases hcheck

/-- The edits of a pass fit the limit, each for itself. -/
theorem selectEdits_fitLine (hrules : session.rules = .onlySingleLine limit severities)
    (linted : (session.lint parser text).1 = .ok report)
    (fits : ∀ e ∈ Fix.selectEdits report.diagnostics, e.Fits text) :
    ∀ e ∈ Fix.selectEdits report.diagnostics, e.FitsLine limit text := by
  obtain ⟨doc, rfl, hmade⟩ := exists_check_of_mem_lint linted
  intro e he
  have hfit := fits e he
  obtain ⟨fix, hfix, hmem⟩ := List.mem_flatMap.mp he
  obtain ⟨d, hd, hoffered⟩ := Fix.exists_of_mem_select hfix
  obtain ⟨rule, hrule, id, made, hcheck, hsame⟩ := hmade d hd
  have hsingle : rule = .singleLine ⟨some limit⟩ := by
    simpa [hrules, RuleSet.onlySingleLine, RuleSet.enabled, RuleSet.empty] using hrule
  subst hsingle
  obtain ⟨_, collapsed, hcollapsed, hshort, hedits⟩ := SingleLine.check_eq_some hcheck
  rw [hedits fix (hsame ▸ hoffered), List.mem_singleton] at hmem
  subst hmem
  exact SingleLine.fitsLine hcollapsed hshort hfit

/-- One pass makes no line longer than the limit for each construct on it. -/
theorem linesWithin_pass (hrules : session.rules = .onlySingleLine limit severities)
    (linted : (session.lint parser text).1 = .ok report)
    (applied : Edit.applyAll text (Fix.selectEdits report.diagnostics) = .ok changed)
    (hcrowd : limit * Edit.crowding text (sortBy Edit.le (Fix.selectEdits report.diagnostics)) ≤ n)
    (htext : Text.LinesWithin n text) : Text.LinesWithin n changed := by
  obtain ⟨fits, _⟩ := Edit.exists_applyAll_eq_ok_iff.mp ⟨changed, applied⟩
  exact Edit.linesWithin_applyAll applied (selectEdits_fitLine hrules linted fits) htext hcrowd

/-- What one pass keeps, a chain of passes keeps. -/
theorem Passes.linesWithin {passes : Nat} {source output : Text}
    (hrules : session.rules = .onlySingleLine limit severities)
    (chain : Passes session parser passes source output)
    (hcrowd : ∀ i text report, i < passes → Passes session parser i source text →
      (session.lint parser text).1 = .ok report →
      limit * Edit.crowding text (sortBy Edit.le (Fix.selectEdits report.diagnostics)) ≤ n)
    (hsource : Text.LinesWithin n source) : Text.LinesWithin n output := by
  induction chain with
  | done => exact hsource
  | pass linted offered applied _ ih =>
    refine ih ?_ ?_
    · intro i later report hi hlater
      exact hcrowd (i + 1) later report (by omega) (.pass linted offered applied hlater)
    · exact linesWithin_pass hrules linted applied
        (hcrowd 0 _ _ (by omega) (.done _) linted) hsource

/-- The limit over a whole run, where at most `k` constructs that are collapsed in one pass come to
stand on one line: lines of at most `limit` characters become lines of at most `k` times the limit.
With `k = 1` the limit is kept. -/
theorem fix_linesWithin {k : Nat} (hk : 0 < k)
    (h : Reached options (.onlySingleLine limit severities) session) (parser : Parser)
    (source : Text) (hsource : Text.LinesWithin limit source) (result : FixResult)
    (hfix : (session.fix parser source).1 = .ok result)
    (hcrowd : ∀ i text report, i < result.passes → Passes session parser i source text →
      (session.lint parser text).1 = .ok report →
      Edit.crowding text (sortBy Edit.le (Fix.selectEdits report.diagnostics)) ≤ k) :
    Text.LinesWithin (limit * k) result.output := by
  have hready := h.ready
  obtain ⟨passes, last, output, _, run, stop⟩ :=
    session.exists_run_stop parser session.options.maxFixPasses 0 source
  obtain ⟨rfl, hpasses, _, _⟩ := stop.of_ok hfix
  rw [Nat.zero_add] at hpasses
  rw [hpasses] at hcrowd
  refine (run.passes hready hready).linesWithin hready.rules_eq ?_ ?_
  · intro i text report hi hchain linted
    exact Nat.mul_le_mul_left limit (hcrowd i text report hi hchain linted)
  · exact hsource.mono (Nat.le_mul_of_pos_right limit hk)

/-! Two objects that meet on a line. Either of them, collapsed alone, leaves a line of at most 16
characters; a pass collapses both. -/

/-- The tree of an object with one property, which starts so many bytes after the brace. -/
def pairObject (span : Span) (margin : Nat) : Tree :=
  let start := span.start + margin
  .node ⟨"ObjectExpression", span, [("properties", .parts [⟨start, start + 4⟩])]⟩
    [.node ⟨"ObjectProperty", ⟨start, start + 4⟩,
        [("key", .part ⟨start, start + 1⟩), ("value", .part ⟨start + 3, start + 4⟩)]⟩
      [.node ⟨"IdentifierName", ⟨start, start + 1⟩, []⟩ [],
       .node ⟨"NumericLiteral", ⟨start + 3, start + 4⟩, []⟩ []]]

/-- The tree of an assignment of an array of two such objects to `x`. -/
def pairFile (width : Nat) (first second : Span) (margin : Nat) : ParsedFile where
  tree :=
    .node ⟨"Program", ⟨0, width⟩, [("body", .parts [⟨0, width⟩])]⟩
      [.node ⟨"ExpressionStatement", ⟨0, width⟩, [("expression", .part ⟨0, width⟩)]⟩
        [.node ⟨"AssignmentExpression", ⟨0, width⟩,
            [("left", .part ⟨0, 1⟩), ("right", .part ⟨4, width⟩)]⟩
          [.node ⟨"IdentifierReference", ⟨0, 1⟩, []⟩ [],
           .node ⟨"ArrayExpression", ⟨4, width⟩, [("elements", .parts [first, second])]⟩
            [pairObject first margin, pairObject second margin]]]]
  comments := []

def spreadPair : Text := "x = [\x7b\n a: 1\n\x7d, \x7b\n b: 2\n\x7d]".toList

def joinedPair : Text := "x = [\x7b a: 1 \x7d, \x7b b: 2 \x7d]".toList

def pairParser : Parser := fun source =>
  if source = spreadPair then .ok (pairFile 26 ⟨5, 14⟩ ⟨16, 25⟩ 3)
  else if source = joinedPair then .ok (pairFile 24 ⟨5, 13⟩ ⟨15, 23⟩ 2)
  else .error ["Unexpected token"]

/-- A new session with a limit of 16 characters. -/
def narrowSession : Session := { rules := .onlySingleLine 16 [] }

theorem fix_spreadPair :
    (narrowSession.fix pairParser spreadPair).1 = .ok ⟨joinedPair, 1, []⟩ :=
  eq_ok_of_toOption (by decide +kernel)

theorem crowding_spreadPair (linted : (narrowSession.lint pairParser spreadPair).1 = .ok report) :
    Edit.crowding spreadPair (sortBy Edit.le (Fix.selectEdits report.diagnostics)) = 2 := by
  have h : (narrowSession.lint pairParser spreadPair).1.toOption.map (fun report =>
      Edit.crowding spreadPair (sortBy Edit.le (Fix.selectEdits report.diagnostics))) = some 2 := by
    decide +kernel
  rw [linted] at h
  exact Option.some.inj h

theorem fix_linesWithin_spreadPair :
    Text.LinesWithin 16 spreadPair ∧
      (narrowSession.fix pairParser spreadPair).1 = .ok ⟨joinedPair, 1, []⟩ ∧
      Text.LinesWithin 32 joinedPair := by
  have hsource : Text.LinesWithin 16 spreadPair := by decide
  refine ⟨hsource, fix_spreadPair, ?_⟩
  refine fix_linesWithin (k := 2) (by decide) .new pairParser spreadPair hsource _ fix_spreadPair ?_
  intro i text report hi chain linted
  obtain rfl : i = 0 := by simpa using hi
  cases chain
  exact Nat.le_of_eq (crowding_spreadPair linted)

/-- The limit is not kept: all lines are within 16 characters, only this rule runs, and the outcome
has a longer line. -/
theorem fix_exceeds_limit :
    Reached {} (.onlySingleLine 16 []) narrowSession ∧ Text.LinesWithin 16 spreadPair ∧
      (narrowSession.fix pairParser spreadPair).1 = .ok ⟨joinedPair, 1, []⟩ ∧
      ¬ Text.LinesWithin 16 joinedPair :=
  ⟨.new, by decide, fix_spreadPair, by decide⟩

end Session

end ScriptLint
