import ScriptLint.Proofs.Lint.Memory

/-!
The contract of a fix run, said of texts only. `Passes` forgets the sessions of a run: every lint of
the chain is put to the session one starts with. Sessions with the same options and rules agree, so
runs and chains are the same thing, and what a run gives can be asked for again later.
-/
namespace ScriptLint.Session

/-- A chain of passes over texts. In each pass edits are on offer for the text and lead to the
next one. -/
inductive Passes (session : Session) (parser : Parser) : Nat → Text → Text → Prop
  | done (text : Text) : Passes session parser 0 text text
  | pass {text changed output : Text} {report : LintReport} {n : Nat}
      (linted : (session.lint parser text).1 = .ok report)
      (offered : Fix.selectEdits report.diagnostics ≠ [])
      (applied : Edit.applyAll text (Fix.selectEdits report.diagnostics) = .ok changed)
      (rest : Passes session parser n changed output) :
      Passes session parser (n + 1) text output

variable {options : Options} {rules : RuleSet} {session first last : Session} {parser : Parser}
  {text output : Text} {n : Nat}

theorem Run.passes (run : Run parser first text n last output)
    (h : Ready options rules session) (hfirst : Ready options rules first) :
    Passes session parser n text output := by
  induction run with
  | done => exact .done _
  | pass linted offered applied _ ih =>
    refine .pass ?_ offered applied (ih (hfirst.after_lint linted))
    rw [← lint_agree h hfirst, linted]

theorem Passes.exists_run (chain : Passes session parser n text output)
    (h : Ready options rules session) (hfirst : Ready options rules first) :
    ∃ last, Run parser first text n last output := by
  induction chain generalizing first with
  | done => exact ⟨first, .done first _⟩
  | @pass text _ _ _ _ linted offered applied _ ih =>
    rw [← lint_agree h hfirst] at linted
    obtain ⟨last, run⟩ := ih (lint_spec hfirst parser text).2
    exact ⟨last, .pass (Prod.ext linted rfl) offered applied run⟩

/-- A text with nothing on offer is its own fix. -/
theorem fix_of_no_edits {report : LintReport} (linted : (session.lint parser text).1 = .ok report)
    (hnone : Fix.selectEdits report.diagnostics = []) :
    (session.fix parser text).1 = .ok ⟨text, 0, report.diagnostics⟩ := by
  rw [fix, fixLoop_of_no_edits (Prod.ext linted rfl) (.inr hnone)]

/-- Where a chain within the limit ends in a text that is not linted, so does the fix. -/
theorem fix_of_passes_error {error : LintError} (h : Ready options rules session)
    (chain : Passes session parser n text output) (hn : n ≤ options.maxFixPasses)
    (linted : (session.lint parser output).1 = .error error) :
    (session.fix parser text).1 = .error error := by
  obtain ⟨last, run⟩ := chain.exists_run h h
  rw [← lint_agree h (run.ready h)] at linted
  have hlimit : session.options.maxFixPasses = n + (options.maxFixPasses - n) := by
    rw [h.options_eq]
    omega
  rw [fix, hlimit, fixLoop_of_run run, fixLoop_of_lint_error (Prod.ext linted rfl)]

/-- What fixing promises. A result is reached by as many passes as it says, no more than the limit,
and comes with what is reported about its text; below the limit no edit is left on offer, and fixing
the text again, now or later, changes nothing. A text of the chain that is not linted makes the fix
fail with that error. -/
theorem fix_contract (h : Reached options rules session) (parser : Parser) (source : Text) :
    (∀ result, (session.fix parser source).1 = .ok result →
      result.passes ≤ options.maxFixPasses ∧
      Passes session parser result.passes source result.output ∧
      (session.lint parser result.output).1 = .ok ⟨result.diagnostics⟩ ∧
      (result.passes < options.maxFixPasses →
        Fix.selectEdits result.diagnostics = [] ∧
        ∀ later, Reached options rules later →
          (later.fix parser result.output).1 = .ok ⟨result.output, 0, result.diagnostics⟩)) ∧
    (∀ n text error, n ≤ options.maxFixPasses → Passes session parser n source text →
      (session.lint parser text).1 = .error error →
      (session.fix parser source).1 = .error error) := by
  have hready := h.ready
  constructor
  · intro result hresult
    obtain ⟨n, last, output, hn, run, stop⟩ :=
      session.exists_run_stop parser session.options.maxFixPasses 0 source
    obtain ⟨rfl, hpasses, linted, idle⟩ := stop.of_ok hresult
    rw [Nat.zero_add] at hpasses
    rw [hready.options_eq] at hn idle
    rw [hpasses]
    refine ⟨hn, run.passes hready hready, ?_, ?_⟩
    · rw [← lint_agree hready (run.ready hready), linted]
    · intro hlt
      have hnone := idle.resolve_left (by omega)
      refine ⟨hnone, ?_⟩
      intro later hlater
      rw [← lint_agree (run.ready hready) hlater.ready] at linted
      exact fix_of_no_edits linted hnone
  · intro n text error hn chain linted
    exact fix_of_passes_error hready chain hn linted

theorem fix_contract_spreadSample :
    Reached {} .standard {} ∧
      (({} : Session).fix sampleParser spreadSample).1 = .ok ⟨joinedSample, 1, []⟩ ∧
      Passes {} sampleParser 1 spreadSample joinedSample ∧
      (({} : Session).lint sampleParser joinedSample).1 = .ok ⟨[]⟩ ∧
      ∀ later, Reached {} .standard later →
        (later.fix sampleParser joinedSample).1 = .ok ⟨joinedSample, 0, []⟩ := by
  have h : Reached {} .standard {} := .new
  obtain ⟨_, chain, linted, again⟩ :=
    (fix_contract h sampleParser spreadSample).1 _ fix_spreadSample
  exact ⟨h, fix_spreadSample, chain, linted, (again (by decide)).2⟩

end ScriptLint.Session
