import ScriptLint.Proofs.Lint.FixRun
import ScriptLint.Proofs.Lint.Pass
import ScriptLint.Proofs.Rule.Cuts
import ScriptLint.Proofs.Rule.Patterns

/-!
What fixing can do to a text and how it can end. With a parser of exact spans, every pass keeps the
code of the text and its edits are accepted, so a whole run neither loses nor repeats code. If the
parser reports no empty comment either, every cut is whole, and a run ends in a result or in an error
of the input: a text that is not parsed, or a tree that is not sound.
-/
namespace ScriptLint.Session

variable {session : Session} {parser : Parser} {source : Text}

theorem exact_sampleParser : ExactParser sampleParser := by
  intro source file h
  rw [sampleParser] at h
  split at h
  · rename_i hsource
    cases h
    rw [hsource]
    exact ⟨by decide +kernel, by decide⟩
  · split at h
    · rename_i hsource
      cases h
      rw [hsource]
      exact ⟨by decide +kernel, by decide⟩
    · cases h

/-- However often the text is changed, its code stays the same but for the order. -/
theorem fix_code_perm (hparser : ExactParser parser) {result : FixResult}
    (h : (session.fix parser source).1 = .ok result) :
    (Text.code result.output).Perm (Text.code source) := by
  obtain ⟨n, last, output, _, run, stop⟩ := session.exists_run_stop parser _ 0 source
  obtain ⟨houtput, _⟩ := stop.of_ok h
  rw [houtput]
  refine run.invariant (P := fun text => (Text.code text).Perm (Text.code source)) ?_ (.refl _)
  intro later text report changed hkept linted applied
  exact (Fix.code_selectEdits_perm (lint_faithful hparser linted) applied).trans hkept

theorem fix_code_perm_spreadSample :
    ExactParser sampleParser ∧
      (({} : Session).fix sampleParser spreadSample).1 = .ok ⟨joinedSample, 1, []⟩ ∧
      (Text.code joinedSample).Perm (Text.code spreadSample) :=
  ⟨exact_sampleParser, fix_spreadSample, fix_code_perm exact_sampleParser fix_spreadSample⟩

/-- The ways in which linting fails: for the sake of its input, or at a cut that is not whole. -/
theorem lint_eq_error {error : LintError} (h : (session.lint parser source).1 = .error error) :
    (∃ messages, error = .parse messages) ∨ (∃ cause, error = .tree cause) ∨
      ∃ doc cut, Document.ofText parser source = .ok doc ∧
        session.rules.brokenCut? doc = some cut ∧ error = .crash cut := by
  rw [lint] at h
  split at h
  · rename_i failure hfailure
    cases h
    rw [Document.ofText] at hfailure
    split at hfailure
    · cases hfailure
      exact .inl ⟨_, rfl⟩
    · split at hfailure
      · cases hfailure
        exact .inr (.inl ⟨_, rfl⟩)
      · cases hfailure
  · rename_i doc hdoc
    obtain ⟨report, hreport⟩ := session.rules.run_ok session.cache doc
    split at h
    · rename_i hrun
      rw [hrun] at hreport
      cases hreport
    · split at h
      · rename_i cut hcut
        cases h
        exact .inr (.inr ⟨doc, cut, hdoc, hcut, rfl⟩)
      · cases h

theorem lint_ne_selector (session : Session) (parser : Parser) (source : Text)
    (error : SelectorError) : (session.lint parser source).1 ≠ .error (.selector error) := by
  intro herror
  rcases lint_eq_error herror with ⟨_, h⟩ | ⟨_, h⟩ | ⟨_, _, _, _, h⟩ <;> cases h

/-- The edits of a pass are never refused, so the error of a fix is that of a lint. -/
theorem exists_lint_of_fix_error (hparser : ExactParser parser) {error : LintError}
    (h : (session.fix parser source).1 = .error error) :
    ∃ (later : Session) (text : Text), (later.lint parser text).1 = .error error := by
  obtain ⟨n, last, text, _, _, stop⟩ := session.exists_run_stop parser _ 0 source
  rcases stop.of_error h with hlint | ⟨report, refusal, linted, refused⟩
  · exact ⟨last, text, hlint⟩
  · obtain ⟨changed, hchanged⟩ := Fix.exists_applyAll_selectEdits (lint_faithful hparser linted)
    rw [hchanged] at refused
    cases refused

/-- The run comes to an end of its own: with a result, or with an error of the input, which is a text
that is not parsed or a tree that is not sound. -/
def Returns {α : Type} (outcome : Except LintError α) : Prop :=
  (∃ result, outcome = .ok result) ∨ (∃ messages, outcome = .error (.parse messages)) ∨
    ∃ cause, outcome = .error (.tree cause)

theorem returns_of_error {α : Type} {outcome : Except LintError α}
    (h : ∀ error, outcome = .error error →
      (∃ messages, error = .parse messages) ∨ ∃ cause, error = .tree cause) :
    Returns outcome := by
  cases houtcome : outcome with
  | ok result => exact .inl ⟨result, rfl⟩
  | error error =>
    rcases h error houtcome with ⟨messages, rfl⟩ | ⟨cause, rfl⟩
    · exact .inr (.inl ⟨messages, rfl⟩)
    · exact .inr (.inr ⟨cause, rfl⟩)

section Nonempty

variable (hparser : ExactParser parser) (hcomments : NonemptyComments parser)

include hparser hcomments

/-- Every cut is whole, so linting fails only for the sake of its input. -/
theorem lint_error_of_input {error : LintError}
    (h : (session.lint parser source).1 = .error error) :
    (∃ messages, error = .parse messages) ∨ ∃ cause, error = .tree cause := by
  rcases lint_eq_error h with hparse | htree | ⟨doc, cut, hdoc, hcut, _⟩
  · exact .inl hparse
  · exact .inr htree
  · have hexact := (Document.ofText_exact hparser hdoc).1
    have hwhole := Document.ofText_comments_exact hparser hcomments hdoc
    rw [RuleSet.brokenCut?_eq_none hexact hwhole session.rules] at hcut
    cases hcut

theorem lint_returns (session : Session) (source : Text) :
    Returns (session.lint parser source).1 := by
  apply returns_of_error
  intro error hlint
  exact lint_error_of_input hparser hcomments hlint

theorem fix_returns (session : Session) (source : Text) :
    Returns (session.fix parser source).1 := by
  apply returns_of_error
  intro error hfix
  obtain ⟨later, text, hlint⟩ := exists_lint_of_fix_error hparser hfix
  exact lint_error_of_input hparser hcomments hlint

end Nonempty

/-- The patterns and fixes of the rules never make a run fail: a lint ends in no selector error, a
fix in none and in no refusal of an edit; whatever text is linted on the way, the edits chosen for it
fit, overlap nowhere and are accepted. Nor does a cut, if comments have a text: the texts of nodes and
all else that a rule cuts out of the source are whole, and a lint or fix returns. -/
theorem fix_fails_only_on_input (session : Session) (hparser : ExactParser parser)
    (source : Text) :
    (∀ error, (session.lint parser source).1 ≠ .error (.selector error)) ∧
    (∀ error, (session.fix parser source).1 ≠ .error (.selector error)) ∧
    (∀ error, (session.fix parser source).1 ≠ .error (.edit error)) ∧
    (NonemptyComments parser →
      Returns (session.lint parser source).1 ∧ Returns (session.fix parser source).1 ∧
      ∀ doc, Document.ofText parser source = .ok doc → ∀ (rule : Rule) (id : NodeId),
        ∀ cut ∈ doc.span id :: rule.cuts doc id, Text.isWhole source cut = true) ∧
    (∀ (later : Session) (text : Text) (report : LintReport),
      (later.lint parser text).1 = .ok report →
      (∀ e ∈ Fix.selectEdits report.diagnostics, e.Fits text) ∧
      ((Fix.selectEdits report.diagnostics).Pairwise fun a b => a.overlaps b = false) ∧
      ∃ changed, Edit.applyAll text (Fix.selectEdits report.diagnostics) = .ok changed) := by
  refine ⟨lint_ne_selector session parser source, ?_, ?_, ?_, ?_⟩
  · intro error hfix
    obtain ⟨later, text, hlint⟩ := exists_lint_of_fix_error hparser hfix
    exact lint_ne_selector later parser text error hlint
  · intro error hfix
    obtain ⟨later, text, hlint⟩ := exists_lint_of_fix_error hparser hfix
    rcases lint_eq_error hlint with ⟨_, h⟩ | ⟨_, h⟩ | ⟨_, _, _, _, h⟩ <;> cases h
  · intro hcomments
    refine ⟨lint_returns hparser hcomments session source,
      fix_returns hparser hcomments session source, ?_⟩
    intro doc hdoc rule id
    obtain ⟨hexact, rfl⟩ := Document.ofText_exact hparser hdoc
    rw [List.forall_mem_cons]
    exact ⟨Text.isWhole_of_exact (hexact.ordered id) (hexact.exact id),
      Rule.cuts_whole hexact (Document.ofText_comments_exact hparser hcomments hdoc) rule id⟩
  · intro later text report linted
    have hfaithful := lint_faithful hparser linted
    obtain ⟨hfits, hapart⟩ := Fix.selectEdits_acceptable hfaithful
    exact ⟨hfits, hapart, Fix.exists_applyAll_selectEdits hfaithful⟩

/-! A type that is declared below its use goes above it, with its comment, in one pass. -/

/-- The tree of a variable of type `T` at one offset and the alias `T` at another. -/
def annotatedFile (width reader declared : Nat) (comment : Span) : ParsedFile :=
  let first : Span × Tree := (⟨reader, reader + 9⟩,
    .node ⟨"VariableDeclaration", ⟨reader, reader + 9⟩,
        [("declarations", .parts [⟨reader + 4, reader + 8⟩])]⟩
      [.node ⟨"VariableDeclarator", ⟨reader + 4, reader + 8⟩,
          [("id", .part ⟨reader + 4, reader + 5⟩)]⟩
        [.node ⟨"BindingIdentifier", ⟨reader + 4, reader + 5⟩, [("symbol", .symbol 0)]⟩ [],
          .node ⟨"TSTypeAnnotation", ⟨reader + 5, reader + 8⟩,
              [("type_annotation", .part ⟨reader + 7, reader + 8⟩)]⟩
            [.node ⟨"TSTypeReference", ⟨reader + 7, reader + 8⟩,
                [("type_name", .part ⟨reader + 7, reader + 8⟩)]⟩
              [.node ⟨"IdentifierReference", ⟨reader + 7, reader + 8⟩,
                [("symbol", .symbol 1)]⟩ []]]]])
  let second : Span × Tree := (⟨declared, declared + 11⟩,
    .node ⟨"TSTypeAliasDeclaration", ⟨declared, declared + 11⟩,
        [("id", .part ⟨declared + 5, declared + 6⟩),
         ("type_annotation", .part ⟨declared + 9, declared + 10⟩)]⟩
      [.node ⟨"BindingIdentifier", ⟨declared + 5, declared + 6⟩, [("symbol", .symbol 1)]⟩ [],
        .node ⟨"TSLiteralType", ⟨declared + 9, declared + 10⟩, []⟩
          [.node ⟨"NumericLiteral", ⟨declared + 9, declared + 10⟩, []⟩ []]])
  let body := if reader < declared then [first, second] else [second, first]
  { tree := .node ⟨"Program", ⟨0, width⟩, [("body", .parts (body.map (·.1)))]⟩ (body.map (·.2))
    comments := [⟨comment, false⟩] }

def lateSample : Text := "let t: T;\n// é\ntype T = 1;".toList

def earlySample : Text := "// é\ntype T = 1;\nlet t: T;".toList

/-- A parser that knows these two texts. -/
def annotatedParser : Parser := fun source =>
  if source = lateSample then .ok (annotatedFile 27 0 16 ⟨10, 15⟩)
  else if source = earlySample then .ok (annotatedFile 27 18 6 ⟨0, 5⟩)
  else .error ["Unexpected token"]

theorem annotatedParser_eq_ok {file : ParsedFile} (h : annotatedParser source = .ok file) :
    file.Exact source ∧ ∀ c ∈ file.comments, c.span.start < c.span.stop := by
  rw [annotatedParser] at h
  split at h
  · rename_i hsource
    cases h
    rw [hsource]
    exact ⟨⟨by decide +kernel, by decide +kernel⟩, by decide⟩
  · split at h
    · rename_i hsource
      cases h
      rw [hsource]
      exact ⟨⟨by decide +kernel, by decide +kernel⟩, by decide⟩
    · cases h

/-- A new session that lets types be used once. -/
def lenientSession : Session := { rules := { RuleSet.standard with singleUseType := none } }

theorem fix_fails_only_on_input_lateSample :
    ExactParser annotatedParser ∧ NonemptyComments annotatedParser ∧
    (lenientSession.fix annotatedParser lateSample).1 = .ok ⟨earlySample, 1, []⟩ ∧
    (∀ error, (lenientSession.lint annotatedParser lateSample).1 ≠ .error (.selector error)) ∧
    Returns (lenientSession.lint annotatedParser lateSample).1 ∧
    Returns (lenientSession.fix annotatedParser lateSample).1 ∧
    (∀ report, (lenientSession.lint annotatedParser lateSample).1 = .ok report →
      ∃ changed, Edit.applyAll lateSample (Fix.selectEdits report.diagnostics) = .ok changed) := by
  have hexact : ExactParser annotatedParser := fun _ _ h => (annotatedParser_eq_ok h).1
  have hcomments : NonemptyComments annotatedParser := fun _ _ h => (annotatedParser_eq_ok h).2
  obtain ⟨hlint, _, _, hreturns, hedits⟩ :=
    fix_fails_only_on_input lenientSession hexact lateSample
  obtain ⟨hlinted, hfixed, _⟩ := hreturns hcomments
  refine ⟨hexact, hcomments, eq_ok_of_toOption (by decide +kernel), hlint, hlinted, hfixed, ?_⟩
  intro report linted
  exact (hedits lenientSession lateSample report linted).2.2

/-! An empty comment takes the first half of the `é` before the variable, and what stands between the
two begins inside that character. -/

def hollowSample : Text := "élet t: T;\ntype T = 1;".toList

example :
    (Document.build hollowSample (annotatedFile 23 2 12 ⟨0, 0⟩) true).toOption.bind
      lenientSession.rules.brokenCut? = some ⟨1, 2⟩ := by
  decide +kernel

end ScriptLint.Session
