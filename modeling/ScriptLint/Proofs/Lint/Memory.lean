import ScriptLint.Proofs.Lint.FixRun

/-!
A session remembers compiled selectors and nothing else. As long as every entry of its cache is what
the pattern compiles to, a lint says what it would say with no cache at all (`Session.lint_spec`);
lint and fix keep the cache so, and leave options and rules alone. So all sessions that can be
reached with the same options and rules agree.
-/
namespace ScriptLint

namespace SelectorCache

variable {c : SelectorCache} {pattern : String}

/-- Every entry is what its pattern compiles to. -/
def Sound (c : SelectorCache) : Prop :=
  ∀ pattern compiled, c.entries.lookup pattern = some compiled →
    Selector.compile pattern = .ok compiled.selector

theorem sound_empty : empty.Sound := by
  intro pattern compiled h
  cases h

theorem getOrCompile_of_compile_error {error : SelectorError} (h : c.Sound)
    (hc : Selector.compile pattern = .error error) : c.getOrCompile pattern = (.error error, c) := by
  rw [getOrCompile]
  split
  · rename_i compiled hfound
    rw [h pattern compiled hfound] at hc
    cases hc
  · rw [hc]

/-- A sound cache answers with the selector of the pattern, old or new, and stays sound. -/
theorem getOrCompile_of_compile_ok {selector : Selector} (h : c.Sound)
    (hc : Selector.compile pattern = .ok selector) :
    ∃ compiled next, c.getOrCompile pattern = (.ok compiled, next) ∧
      compiled.selector = selector ∧ next.Sound := by
  rw [getOrCompile]
  split
  · rename_i compiled hfound
    have hsame := h pattern compiled hfound
    rw [hc] at hsame
    exact ⟨compiled, c, rfl, (Except.ok.inj hsame).symm, h⟩
  · rw [hc]
    refine ⟨_, _, rfl, rfl, ?_⟩
    intro other compiled hfound
    simp only [List.lookup_cons] at hfound
    split at hfound
    · rename_i heq
      cases hfound
      rw [beq_iff_eq.mp heq]
      exact hc
    · exact h other compiled hfound

end SelectorCache

namespace Dispatch

/-- Compile the patterns in order, with no cache. -/
def compileEach : List (Rule × String) → Except SelectorError (List Dispatch)
  | [] => .ok []
  | (rule, pattern) :: rest =>
    match Selector.compile pattern with
    | .error error => .error error
    | .ok selector => (compileEach rest).map (⟨rule, selector⟩ :: ·)

theorem compileAll_spec {cache : SelectorCache} (h : cache.Sound)
    (patterns : List (Rule × String)) :
    (compileAll cache patterns).1 = compileEach patterns ∧
      (compileAll cache patterns).2.Sound := by
  induction patterns generalizing cache with
  | nil => exact ⟨rfl, h⟩
  | cons entry rest ih =>
    obtain ⟨rule, pattern⟩ := entry
    cases hc : Selector.compile pattern with
    | error error =>
      simp only [compileAll, SelectorCache.getOrCompile_of_compile_error h hc, compileEach, hc]
      exact ⟨trivial, h⟩
    | ok selector =>
      obtain ⟨compiled, next, hget, rfl, hnext⟩ := SelectorCache.getOrCompile_of_compile_ok h hc
      obtain ⟨hrest, hlast⟩ := ih hnext
      simp only [compileAll, hget, compileEach, hc, ← hrest]
      revert hlast
      rcases compileAll next rest with ⟨error | dispatches, last⟩ <;> intro hlast
      · exact ⟨rfl, hlast⟩
      · exact ⟨rfl, hlast⟩

end Dispatch

namespace RuleSet

/-- Run the enabled rules with no cache. -/
def runEach (rules : RuleSet) (doc : Document) : Except SelectorError LintReport :=
  (Dispatch.compileEach (rules.enabled.flatMap Rule.patterns)).map (rules.report · doc)

theorem run_spec (rules : RuleSet) {cache : SelectorCache} (h : cache.Sound) (doc : Document) :
    (rules.run cache doc).1 = rules.runEach doc ∧ (rules.run cache doc).2.Sound := by
  obtain ⟨heach, hsound⟩ := Dispatch.compileAll_spec h (rules.enabled.flatMap Rule.patterns)
  rw [run, runEach, ← heach]
  revert hsound
  rcases Dispatch.compileAll cache (rules.enabled.flatMap Rule.patterns) with
    ⟨error | dispatches, last⟩ <;> intro hsound
  · exact ⟨rfl, hsound⟩
  · exact ⟨rfl, hsound⟩

end RuleSet

namespace Session

/-- The sessions that lints and fixes, with whatever parser and text, lead to from a new session
with the options and rules. -/
inductive Reached (options : Options) (rules : RuleSet) : Session → Prop
  | new : Reached options rules { options, rules }
  | lint {session : Session} (h : Reached options rules session) (parser : Parser) (text : Text) :
      Reached options rules (session.lint parser text).2
  | fix {session : Session} (h : Reached options rules session) (parser : Parser) (text : Text) :
      Reached options rules (session.fix parser text).2

/-- What all these sessions have in common. -/
structure Ready (options : Options) (rules : RuleSet) (session : Session) : Prop where
  options_eq : session.options = options
  rules_eq : session.rules = rules
  cache_sound : session.cache.Sound

variable {options : Options} {rules : RuleSet} {session : Session}

/-- What a lint says, with no cache. -/
def lintEach (rules : RuleSet) (parser : Parser) (source : Text) : Except LintError LintReport :=
  match Document.ofText parser source with
  | .error error => .error error
  | .ok doc =>
    match rules.runEach doc with
    | .error error => .error (.selector error)
    | .ok report =>
      match rules.brokenCut? doc with
      | some cut => .error (.crash cut)
      | none => .ok report

theorem lint_spec (h : Ready options rules session) (parser : Parser) (source : Text) :
    (session.lint parser source).1 = lintEach rules parser source ∧
      Ready options rules (session.lint parser source).2 := by
  obtain ⟨rfl, rfl, hcache⟩ := h
  rw [lint, lintEach]
  cases Document.ofText parser source with
  | error error => exact ⟨rfl, rfl, rfl, hcache⟩
  | ok doc =>
    obtain ⟨heach, hsound⟩ := session.rules.run_spec hcache doc
    dsimp only
    rw [← heach]
    revert hsound
    rcases session.rules.run session.cache doc with ⟨error | report, cache⟩ <;> intro hsound
    · exact ⟨rfl, rfl, rfl, hsound⟩
    · cases session.rules.brokenCut? doc with
      | none => exact ⟨rfl, rfl, rfl, hsound⟩
      | some cut => exact ⟨rfl, rfl, rfl, hsound⟩

/-- Sessions with the same options and rules say the same about a text. -/
theorem lint_agree {other : Session} (h : Ready options rules session)
    (hother : Ready options rules other) (parser : Parser) (source : Text) :
    (other.lint parser source).1 = (session.lint parser source).1 := by
  rw [(lint_spec h parser source).1, (lint_spec hother parser source).1]

theorem Ready.after_lint {parser : Parser} {text : Text} {next : Session}
    {outcome : Except LintError LintReport} (h : Ready options rules session)
    (linted : session.lint parser text = (outcome, next)) : Ready options rules next := by
  have hnext := (lint_spec h parser text).2
  rw [linted] at hnext
  exact hnext

theorem Run.ready {parser : Parser} {text output : Text} {n : Nat} {last : Session}
    (run : Run parser session text n last output) (h : Ready options rules session) :
    Ready options rules last := by
  induction run with
  | done => exact h
  | pass linted _ _ _ ih => exact ih (h.after_lint linted)

theorem fix_ready (h : Ready options rules session) (parser : Parser) (source : Text) :
    Ready options rules (session.fix parser source).2 := by
  obtain ⟨n, last, output, _, run, stop⟩ := session.exists_run_stop parser _ 0 source
  have hlast := (lint_spec (run.ready h) parser output).2
  rw [← stop.session_eq] at hlast
  exact hlast

theorem Reached.ready (h : Reached options rules session) : Ready options rules session := by
  induction h with
  | new => exact ⟨rfl, rfl, SelectorCache.sound_empty⟩
  | lint _ parser text ih => exact (lint_spec ih parser text).2
  | fix _ parser text ih => exact fix_ready ih parser text

end Session

end ScriptLint
