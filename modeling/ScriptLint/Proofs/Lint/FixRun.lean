import ScriptLint.Lint.Session

/-!
Runs of the fix loop. `Run` says what a number of passes does, with the session as it goes from one
lint to the next, and `Stop` how it can end at the text that is reached. The loop is a run and a
stop (`exists_run_stop`), so what is to be shown of all results or of all errors is shown of the
three ways to stop; what every pass keeps, a run keeps (`Run.invariant`).
-/
namespace ScriptLint.Session

/-- A number of passes leads from one session and text to another. In each of them the text is
linted without error, edits are on offer, and the text is changed by them. -/
inductive Run (parser : Parser) : Session → Text → Nat → Session → Text → Prop
  | done (session : Session) (text : Text) : Run parser session text 0 session text
  | pass {session next last : Session} {text changed output : Text} {report : LintReport} {n : Nat}
      (linted : session.lint parser text = (.ok report, next))
      (offered : Fix.selectEdits report.diagnostics ≠ [])
      (applied : Edit.applyAll text (Fix.selectEdits report.diagnostics) = .ok changed)
      (rest : Run parser next changed n last output) :
      Run parser session text (n + 1) last output

/-- The ways to stop at a text with a number of passes left: it is not linted, nothing more is to be
done, or the edits on offer are refused. -/
inductive Stop (parser : Parser) (session : Session) (text : Text) (remaining passes : Nat) :
    Except LintError FixResult × Session → Prop
  | failed {error : LintError} {next : Session}
      (linted : session.lint parser text = (.error error, next)) :
      Stop parser session text remaining passes (.error error, next)
  | finished {report : LintReport} {next : Session}
      (linted : session.lint parser text = (.ok report, next))
      (idle : remaining = 0 ∨ Fix.selectEdits report.diagnostics = []) :
      Stop parser session text remaining passes (.ok ⟨text, passes, report.diagnostics⟩, next)
  | refused {report : LintReport} {next : Session} {refusal : EditError}
      (linted : session.lint parser text = (.ok report, next))
      (refused : Edit.applyAll text (Fix.selectEdits report.diagnostics) = .error refusal) :
      Stop parser session text remaining passes (.error (.edit refusal), next)

variable {parser : Parser} {session final : Session} {text : Text} {remaining passes : Nat}

/-- What every pass keeps, a run keeps. -/
theorem Run.invariant {P : Text → Prop}
    (step : ∀ (session : Session) (text : Text) (report : LintReport) (changed : Text),
      P text → (session.lint parser text).1 = .ok report →
      Edit.applyAll text (Fix.selectEdits report.diagnostics) = .ok changed → P changed)
    {last : Session} {output : Text} {n : Nat} (run : Run parser session text n last output)
    (h : P text) : P output := by
  induction run with
  | done => exact h
  | pass linted _ applied _ ih => exact ih (step _ _ _ _ h (by rw [linted]) applied)

namespace Stop

variable {outcome : Except LintError FixResult × Session}

/-- The last thing done is a lint. -/
theorem session_eq (stop : Stop parser session text remaining passes outcome) :
    outcome.2 = (session.lint parser text).2 := by
  cases stop with
  | failed linted => rw [linted]
  | finished linted => rw [linted]
  | refused linted => rw [linted]

theorem of_ok {result : FixResult} (stop : Stop parser session text remaining passes outcome)
    (h : outcome.1 = .ok result) :
    result.output = text ∧ result.passes = passes ∧
      (session.lint parser text).1 = .ok ⟨result.diagnostics⟩ ∧
      (remaining = 0 ∨ Fix.selectEdits result.diagnostics = []) := by
  cases stop with
  | failed => cases h
  | finished linted idle =>
    cases h
    exact ⟨rfl, rfl, by rw [linted], idle⟩
  | refused => cases h

theorem of_error {error : LintError} (stop : Stop parser session text remaining passes outcome)
    (h : outcome.1 = .error error) :
    (session.lint parser text).1 = .error error ∨
      ∃ report refusal, (session.lint parser text).1 = .ok report ∧
        Edit.applyAll text (Fix.selectEdits report.diagnostics) = .error refusal := by
  cases stop with
  | failed linted =>
    cases h
    exact .inl (by rw [linted])
  | finished => cases h
  | refused linted refused => exact .inr ⟨_, _, by rw [linted], refused⟩

end Stop

/-! One lint decides how the loop goes on. -/

theorem fixLoop_of_lint_error {error : LintError}
    (linted : session.lint parser text = (.error error, final)) :
    session.fixLoop parser remaining passes text = (.error error, final) := by
  cases remaining with
  | zero => simp only [fixLoop, linted]
  | succ remaining => simp only [fixLoop, linted]

theorem fixLoop_of_no_edits {report : LintReport}
    (linted : session.lint parser text = (.ok report, final))
    (hedits : remaining = 0 ∨ Fix.selectEdits report.diagnostics = []) :
    session.fixLoop parser remaining passes text =
      (.ok ⟨text, passes, report.diagnostics⟩, final) := by
  cases remaining with
  | zero => simp only [fixLoop, linted]
  | succ remaining =>
    have hnone : Fix.selectEdits report.diagnostics = [] := hedits.resolve_left (by omega)
    simp only [fixLoop, linted, hnone]

theorem fixLoop_of_refused {report : LintReport} {next : Session} {refusal : EditError}
    (linted : session.lint parser text = (.ok report, next))
    (offered : Fix.selectEdits report.diagnostics ≠ [])
    (refused : Edit.applyAll text (Fix.selectEdits report.diagnostics) = .error refusal) :
    session.fixLoop parser (remaining + 1) passes text = (.error (.edit refusal), next) := by
  cases hedits : Fix.selectEdits report.diagnostics with
  | nil => exact absurd hedits offered
  | cons edit rest =>
    rw [hedits] at refused
    simp only [fixLoop, linted, hedits, refused]

theorem fixLoop_of_applied {report : LintReport} {next : Session} {changed : Text}
    (linted : session.lint parser text = (.ok report, next))
    (offered : Fix.selectEdits report.diagnostics ≠ [])
    (applied : Edit.applyAll text (Fix.selectEdits report.diagnostics) = .ok changed) :
    session.fixLoop parser (remaining + 1) passes text =
      next.fixLoop parser remaining (passes + 1) changed := by
  cases hedits : Fix.selectEdits report.diagnostics with
  | nil => exact absurd hedits offered
  | cons edit rest =>
    rw [hedits] at applied
    simp only [fixLoop, linted, hedits, applied]

/-- The loop follows a run as far as it goes. -/
theorem fixLoop_of_run {last : Session} {output : Text} {n : Nat}
    (run : Run parser session text n last output) :
    session.fixLoop parser (n + remaining) passes text =
      last.fixLoop parser remaining (passes + n) output := by
  induction run generalizing passes with
  | done => rw [Nat.zero_add, Nat.add_zero]
  | @pass _ _ _ _ _ _ _ n linted offered applied _ ih =>
    rw [show n + 1 + remaining = n + remaining + 1 by omega,
      fixLoop_of_applied linted offered applied, ih,
      show passes + 1 + n = passes + (n + 1) by omega]

/-- The loop is a run and a stop. -/
theorem exists_run_stop (session : Session) (parser : Parser) (remaining passes : Nat)
    (text : Text) :
    ∃ n last output, n ≤ remaining ∧ Run parser session text n last output ∧
      Stop parser last output (remaining - n) (passes + n)
        (session.fixLoop parser remaining passes text) := by
  induction remaining generalizing session passes text with
  | zero =>
    refine ⟨0, session, text, Nat.le_refl _, .done session text, ?_⟩
    rcases linted : session.lint parser text with ⟨error | report, next⟩
    · rw [fixLoop_of_lint_error linted]
      exact .failed linted
    · rw [fixLoop_of_no_edits linted (.inl rfl)]
      exact .finished linted (.inl rfl)
  | succ remaining ih =>
    rcases linted : session.lint parser text with ⟨error | report, next⟩
    · rw [fixLoop_of_lint_error linted]
      exact ⟨0, session, text, Nat.zero_le _, .done session text, .failed linted⟩
    · by_cases offered : Fix.selectEdits report.diagnostics = []
      · rw [fixLoop_of_no_edits linted (.inr offered)]
        exact ⟨0, session, text, Nat.zero_le _, .done session text, .finished linted (.inr offered)⟩
      · cases applied : Edit.applyAll text (Fix.selectEdits report.diagnostics) with
        | error refusal =>
          rw [fixLoop_of_refused linted offered applied]
          exact ⟨0, session, text, Nat.zero_le _, .done session text, .refused linted applied⟩
        | ok changed =>
          rw [fixLoop_of_applied linted offered applied]
          obtain ⟨n, last, output, hn, run, hstop⟩ := ih next (passes + 1) changed
          refine ⟨n + 1, last, output, by omega, .pass linted offered applied run, ?_⟩
          rw [Nat.add_sub_add_right, show passes + (n + 1) = passes + 1 + n by omega]
          exact hstop

/-! A run to look at: an object spread over lines is put on one line in one pass. -/

/-- The tree of a declaration of `été` as an object with one property that starts at `property`. -/
def sampleFile (width property : Nat) : ParsedFile where
  tree :=
    .node ⟨"Program", ⟨0, width⟩, [("body", .parts [⟨0, width⟩])]⟩
      [.node ⟨"VariableDeclaration", ⟨0, width⟩, [("declarations", .parts [⟨6, width - 1⟩])]⟩
        [.node ⟨"VariableDeclarator", ⟨6, width - 1⟩,
            [("id", .part ⟨6, 11⟩), ("init", .part ⟨14, width - 1⟩)]⟩
          [.node ⟨"BindingIdentifier", ⟨6, 11⟩, [("symbol", .symbol 0)]⟩ [],
           .node ⟨"ObjectExpression", ⟨14, width - 1⟩,
              [("properties", .parts [⟨property, property + 13⟩])]⟩
            [.node ⟨"ObjectProperty", ⟨property, property + 13⟩,
                [("key", .part ⟨property, property + 5⟩),
                 ("value", .part ⟨property + 7, property + 13⟩)]⟩
              [.node ⟨"StringLiteral", ⟨property, property + 5⟩, []⟩ [],
               .node ⟨"StringLiteral", ⟨property + 7, property + 13⟩, []⟩ []]]]]]
  comments := []

def spreadSample : Text := "const été = \x7b\n  '日': '😀',\n\x7d;".toList

def joinedSample : Text := "const été = \x7b '日': '😀' \x7d;".toList

/-- A parser that knows these two texts. -/
def sampleParser : Parser := fun source =>
  if source = spreadSample then .ok (sampleFile 35 18)
  else if source = joinedSample then .ok (sampleFile 32 16)
  else .error ["Unexpected token"]

theorem eq_ok_of_toOption {ε α : Type} {outcome : Except ε α} {value : α}
    (h : outcome.toOption = some value) : outcome = .ok value := by
  cases outcome with
  | error error => cases h
  | ok result => rw [Option.some.inj h]

theorem fix_spreadSample :
    (({} : Session).fix sampleParser spreadSample).1 = .ok ⟨joinedSample, 1, []⟩ :=
  eq_ok_of_toOption (by decide +kernel)

end ScriptLint.Session
