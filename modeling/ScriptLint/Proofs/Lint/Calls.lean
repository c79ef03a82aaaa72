import ScriptLint.Proofs.Lint.Memory
import ScriptLint.Proofs.Selector.Requests

/-!
Sequences of calls on one session. Lint and fix answer alike in all sessions that are ready with the
same options and rules (`perform_agree`), and leave the session ready. So each call of a sequence is
answered as a new session would answer it, whatever was asked before and whether it failed or not;
the same is said of the requests to a selector cache.
-/
namespace ScriptLint.Session

/-- What a session can be asked to do with a text. -/
inductive Call where
  | lint (source : Text)
  | fix (source : Text)
  deriving DecidableEq, Repr

inductive Answer where
  | linted (outcome : Except LintError LintReport)
  | fixed (outcome : Except LintError FixResult)

def perform (session : Session) (parser : Parser) : Call → Answer × Session
  | .lint source => (.linted (session.lint parser source).1, (session.lint parser source).2)
  | .fix source => (.fixed (session.fix parser source).1, (session.fix parser source).2)

/-- The answers to calls made one after the other. -/
def answers (session : Session) (parser : Parser) : List Call → List Answer
  | [] => []
  | call :: calls =>
    (session.perform parser call).1 :: (session.perform parser call).2.answers parser calls

variable {options : Options} {rules : RuleSet} {session other : Session} {parser : Parser}

theorem ready_new (options : Options) (rules : RuleSet) :
    Ready options rules { options, rules } :=
  Reached.new.ready

/-- A lint ends alike in both sessions, and leaves both ready. -/
theorem exists_lint_alike (h : Ready options rules session) (hother : Ready options rules other)
    (parser : Parser) (text : Text) :
    ∃ outcome next next', session.lint parser text = (outcome, next) ∧
      other.lint parser text = (outcome, next') ∧
      Ready options rules next ∧ Ready options rules next' :=
  ⟨(session.lint parser text).1, (session.lint parser text).2, (other.lint parser text).2, rfl,
    Prod.ext (lint_agree h hother parser text) rfl, (lint_spec h parser text).2,
    (lint_spec hother parser text).2⟩

/-- So the two loops apply the same edits and go on with the same text. -/
theorem fixLoop_agree (h : Ready options rules session) (hother : Ready options rules other)
    (remaining passes : Nat) (text : Text) :
    (other.fixLoop parser remaining passes text).1 =
      (session.fixLoop parser remaining passes text).1 := by
  induction remaining generalizing session other passes text with
  | zero =>
    obtain ⟨error | report, next, next', linted, linted', -⟩ :=
      exists_lint_alike h hother parser text
    · rw [fixLoop_of_lint_error linted, fixLoop_of_lint_error linted']
    · rw [fixLoop_of_no_edits linted (.inl rfl), fixLoop_of_no_edits linted' (.inl rfl)]
  | succ remaining ih =>
    obtain ⟨error | report, next, next', linted, linted', hnext, hnext'⟩ :=
      exists_lint_alike h hother parser text
    · rw [fixLoop_of_lint_error linted, fixLoop_of_lint_error linted']
    · by_cases offered : Fix.selectEdits report.diagnostics = []
      · rw [fixLoop_of_no_edits linted (.inr offered), fixLoop_of_no_edits linted' (.inr offered)]
      · cases applied : Edit.applyAll text (Fix.selectEdits report.diagnostics) with
        | error refusal =>
          rw [fixLoop_of_refused linted offered applied, fixLoop_of_refused linted' offered applied]
        | ok changed =>
          rw [fixLoop_of_applied linted offered applied, fixLoop_of_applied linted' offered applied]
          exact ih hnext hnext' (passes + 1) changed

theorem fix_agree (h : Ready options rules session) (hother : Ready options rules other)
    (source : Text) : (other.fix parser source).1 = (session.fix parser source).1 := by
  rw [fix, fix, h.options_eq, hother.options_eq]
  exact fixLoop_agree h hother _ 0 source

theorem perform_agree (h : Ready options rules session) (hother : Ready options rules other)
    (call : Call) : (other.perform parser call).1 = (session.perform parser call).1 := by
  cases call with
  | lint source => exact congrArg Answer.linted (lint_agree h hother parser source)
  | fix source => exact congrArg Answer.fixed (fix_agree h hother source)

theorem Ready.perform (h : Ready options rules session) (call : Call) :
    Ready options rules (session.perform parser call).2 := by
  cases call with
  | lint source => exact (lint_spec h parser source).2
  | fix source => exact fix_ready h parser source

/-- Calls on a ready session are answered as if each was made on another one. -/
theorem answers_eq_map (h : Ready options rules session) (hother : Ready options rules other)
    (calls : List Call) :
    session.answers parser calls = calls.map fun call => (other.perform parser call).1 := by
  induction calls generalizing session with
  | nil => rfl
  | cons call calls ih =>
    rw [answers, List.map_cons, ih (h.perform call), perform_agree hother h]

end ScriptLint.Session

namespace ScriptLint

open SelectorCache (Request empty sinceClear)

/-- Sessions and selector caches have no memory that shows. Every call of a sequence is answered as a
new session answers it. After any requests, a cache answers as the compiler does, a pattern that does
not compile leaves it as it is, two answers are the same object exactly if they are for one pattern
with no clearing in between, and its size is the number of different patterns that were asked for
since the last clearing and compile. -/
theorem answers_without_memory (options : Options) (rules : RuleSet) (parser : Parser)
    (calls : List Session.Call) (requests between : List Request) (pattern other : String) :
    ({ options, rules } : Session).answers parser calls =
        calls.map (fun call => (({ options, rules } : Session).perform parser call).1) ∧
      ((empty.serveAll requests).getOrCompile pattern).1.map (·.selector) =
        Selector.compile pattern ∧
      (∀ error, Selector.compile pattern = .error error →
        ((empty.serveAll requests).getOrCompile pattern).2 = empty.serveAll requests) ∧
      (∀ compiled later,
        ((empty.serveAll requests).getOrCompile pattern).1 = .ok compiled →
        ((empty.serveAll (requests ++ .get pattern :: between)).getOrCompile other).1 = .ok later →
        (later.ticket = compiled.ticket ↔ other = pattern ∧ Request.clear ∉ between)) ∧
      (empty.serveAll requests).size =
        ((sinceClear requests).filter fun p => (Selector.compile p).isOk).dedup.length := by
  have htidy := SelectorCache.tidy_serveAll_empty requests
  have hready := Session.ready_new options rules
  refine ⟨Session.answers_eq_map hready hready calls,
    (SelectorCache.getOrCompile_spec htidy.sound pattern).1, ?_, ?_, htidy.size_eq⟩
  · intro error hc
    rw [SelectorCache.getOrCompile_of_compile_error htidy.sound hc]
  · intro compiled later hfirst hlater
    rw [SelectorCache.serveAll_append, SelectorCache.serveAll_cons] at hlater
    exact SelectorCache.ticket_eq_iff htidy (Prod.ext hfirst rfl) hlater

/-- A fix, a lint that fails, and a lint of the fixed text. -/
def callsSample : List Session.Call :=
  [.fix Session.spreadSample, .lint [], .lint Session.joinedSample]

/-- Besides what is cleared, one pattern that compiles and one that does not. -/
def requestsSample : List Request := [.get "Identifier", .clear, .get "Literal", .get "]"]

theorem exists_ok_of_isOk {ε α : Type} {outcome : Except ε α} (h : outcome.isOk = true) :
    ∃ value, outcome = .ok value := by
  cases outcome with
  | error error => cases h
  | ok value => exact ⟨value, rfl⟩

/-- The pattern of `requestsSample` that compiles is asked for twice more, with another in between. -/
theorem answers_without_memory_sample :
    ({} : Session).answers Session.sampleParser callsSample =
        [.fixed (.ok ⟨Session.joinedSample, 1, []⟩),
          .linted (.error (.parse ["Unexpected token"])), .linted (.ok ⟨[]⟩)] ∧
      (empty.serveAll requestsSample).size = 1 ∧
      ((empty.serveAll requestsSample).getOrCompile "]").2 = empty.serveAll requestsSample ∧
      ∃ compiled later,
        ((empty.serveAll requestsSample).getOrCompile "Literal").1 = .ok compiled ∧
        ((empty.serveAll (requestsSample ++ [.get "Literal", .get "Identifier"])).getOrCompile
          "Literal").1 = .ok later ∧
        later.ticket = compiled.ticket := by
  obtain ⟨hanswers, _, _, hsame, hsize⟩ := answers_without_memory {} .standard
    Session.sampleParser callsSample requestsSample [.get "Identifier"] "Literal" "Literal"
  obtain ⟨_, _, hfailed, _⟩ := answers_without_memory {} .standard
    Session.sampleParser callsSample requestsSample [] "]" "]"
  obtain ⟨error, hc⟩ : ∃ error, Selector.compile "]" = .error error := ⟨_, rfl⟩
  obtain ⟨compiled, hfirst⟩ : ∃ compiled,
      ((empty.serveAll requestsSample).getOrCompile "Literal").1 = .ok compiled :=
    exists_ok_of_isOk (by decide +kernel)
  obtain ⟨later, hlater⟩ : ∃ later,
      ((empty.serveAll (requestsSample ++ [.get "Literal", .get "Identifier"])).getOrCompile
        "Literal").1 = .ok later :=
    exists_ok_of_isOk (by decide +kernel)
  have hfix := Session.fix_spreadSample
  have hlint : (({} : Session).lint Session.sampleParser Session.joinedSample).1 = .ok ⟨[]⟩ :=
    Session.eq_ok_of_toOption (by decide +kernel)
  refine ⟨?_, by rw [hsize]; decide +kernel, hfailed error hc, compiled, later, hfirst, hlater,
    (hsame compiled later hfirst hlater).mpr ⟨rfl, by decide⟩⟩
  rw [hanswers]
  simp only [callsSample, List.map_cons, List.map_nil, Session.perform, hfix, hlint]
  rfl

end ScriptLint
