import ScriptLint.Lint.Session
import ScriptLint.Proofs.Rule.Faithful

/-!
One pass over a text. Fixes are kept only if they overlap none kept before, so where all fixes on
offer are faithful, the edits of a pass are accepted together (`Fix.exists_applyAll_selectEdits`)
and change nothing but blanks and delimiters (`Fix.code_selectEdits_perm`). What a lint with a
parser of exact spans offers is faithful (`Session.lint_faithful`).
-/
namespace ScriptLint

namespace Fix

theorem keepDisjoint_sublist (kept fixes : List Fix) : (keepDisjoint kept fixes).Sublist fixes := by
  induction fixes generalizing kept with
  | nil => exact .slnil
  | cons fix rest ih =>
    rw [keepDisjoint]
    split
    · exact (ih kept).cons fix
    · exact (ih (kept ++ [fix])).cons_cons fix

/-- What is kept overlaps nothing that was kept before it began. -/
theorem keepDisjoint_clear (kept fixes : List Fix) :
    ∀ k ∈ kept, ∀ fix ∈ keepDisjoint kept fixes, k.overlaps fix = false := by
  induction fixes generalizing kept with
  | nil =>
    intro k _ fix hfix
    cases hfix
  | cons first rest ih =>
    intro k hk fix hfix
    rw [keepDisjoint] at hfix
    split at hfix
    · exact ih kept k hk fix hfix
    · rename_i hclear
      rcases List.mem_cons.mp hfix with rfl | hfix
      · cases hoverlap : k.overlaps fix with
        | false => rfl
        | true => exact absurd (List.any_eq_true.mpr ⟨k, hk, hoverlap⟩) hclear
      · exact ih (kept ++ [first]) k (List.mem_append_left _ hk) fix hfix

theorem keepDisjoint_pairwise (kept fixes : List Fix) :
    (keepDisjoint kept fixes).Pairwise fun f g => f.overlaps g = false := by
  induction fixes generalizing kept with
  | nil => exact .nil
  | cons fix rest ih =>
    rw [keepDisjoint]
    split
    · exact ih kept
    · refine List.pairwise_cons.mpr ⟨?_, ih _⟩
      exact keepDisjoint_clear (kept ++ [fix]) rest fix (by simp)

theorem exists_of_mem_select {diagnostics : List Diagnostic} {fix : Fix}
    (h : fix ∈ select diagnostics) : ∃ d ∈ diagnostics, fix ∈ d.fixes := by
  have hcandidate := (keepDisjoint_sublist [] (candidates diagnostics)).mem h
  rw [candidates, mem_sortBy, List.mem_filterMap] at hcandidate
  obtain ⟨d, hd, hhead⟩ := hcandidate
  exact ⟨d, hd, List.mem_of_head? hhead⟩

theorem edits_clear {f g : Fix} (h : f.overlaps g = false) :
    ∀ a ∈ f.edits, ∀ b ∈ g.edits, a.overlaps b = false := by
  intro a ha b hb
  cases hoverlap : a.overlaps b with
  | false => rfl
  | true =>
    have : f.overlaps g = true :=
      List.any_eq_true.mpr ⟨a, ha, List.any_eq_true.mpr ⟨b, hb, hoverlap⟩⟩
    rw [this] at h
    cases h

/-- Fixes that are acceptable one by one and are selected are acceptable together. -/
theorem selectEdits_acceptable_of_each {source : Text} {diagnostics : List Diagnostic}
    (h : ∀ fix ∈ select diagnostics, (∀ e ∈ fix.edits, e.Fits source) ∧
      fix.edits.Pairwise fun a b => a.overlaps b = false) :
    (∀ e ∈ selectEdits diagnostics, e.Fits source) ∧
      (selectEdits diagnostics).Pairwise fun a b => a.overlaps b = false := by
  constructor
  · intro e he
    obtain ⟨fix, hfix, hmem⟩ := List.mem_flatMap.mp he
    exact (h fix hfix).1 e hmem
  · refine List.pairwise_flatMap.mpr ⟨fun fix hfix => (h fix hfix).2, ?_⟩
    exact (keepDisjoint_pairwise [] (candidates diagnostics)).imp edits_clear

theorem code_removed_flatMap {source : Text} {fixes : List Fix}
    (h : ∀ fix ∈ fixes, fix.Faithful source) :
    Text.code (Edit.removed source (fixes.flatMap (·.edits))) =
      Text.code (Edit.inserted (fixes.flatMap (·.edits))) := by
  induction fixes with
  | nil => rfl
  | cons fix rest ih =>
    rw [List.flatMap_cons, Edit.removed_append, Edit.inserted_append, Text.code_append,
      Text.code_append, (h fix List.mem_cons_self).code_kept,
      ih fun g hg => h g (List.mem_cons_of_mem fix hg)]

section Faithful

variable {source : Text} {diagnostics : List Diagnostic}
  (h : ∀ d ∈ diagnostics, ∀ fix ∈ d.fixes, fix.Faithful source)

include h

theorem select_faithful : ∀ fix ∈ select diagnostics, fix.Faithful source := by
  intro fix hfix
  obtain ⟨d, hd, hmem⟩ := exists_of_mem_select hfix
  exact h d hd fix hmem

/-- The edits of a pass fit the text and overlap nowhere. -/
theorem selectEdits_acceptable :
    (∀ e ∈ selectEdits diagnostics, e.Fits source) ∧
      (selectEdits diagnostics).Pairwise fun a b => a.overlaps b = false := by
  apply selectEdits_acceptable_of_each
  intro fix hfix
  exact ⟨(select_faithful h fix hfix).fits, (select_faithful h fix hfix).apart⟩

theorem exists_applyAll_selectEdits :
    ∃ changed, Edit.applyAll source (selectEdits diagnostics) = .ok changed :=
  Edit.exists_applyAll_eq_ok_iff.mpr (selectEdits_acceptable h)

/-- A pass keeps the code of the text, though not its order. -/
theorem code_selectEdits_perm {changed : Text}
    (applied : Edit.applyAll source (selectEdits diagnostics) = .ok changed) :
    (Text.code changed).Perm (Text.code source) := by
  have hselect := select_faithful h
  have hperm := Text.code_perm (Edit.applyAll_perm applied)
  rw [Text.code_append, Text.code_append, selectEdits, code_removed_flatMap hselect] at hperm
  exact (List.perm_append_right_iff _).mp hperm

end Faithful

end Fix

/-- The report on an exact document offers faithful fixes only. -/
theorem RuleSet.report_faithful {doc : Document} (hdoc : doc.Exact) (rules : RuleSet)
    (dispatches : List Dispatch) :
    ∀ d ∈ (rules.report dispatches doc).diagnostics, ∀ fix ∈ d.fixes,
      fix.Faithful doc.source := by
  intro d hd fix hfix
  rw [report, mem_sortBy, List.mem_map] at hd
  obtain ⟨made, hmade, rfl⟩ := hd
  have hfixes : (rules.withSeverity made).fixes = made.fixes := by
    rw [withSeverity]
    split <;> rfl
  rw [hfixes] at hfix
  obtain ⟨id, _, hnode⟩ := List.mem_flatMap.mp hmade
  obtain ⟨dispatch, _, hcheck⟩ := List.mem_filterMap.mp hnode
  split at hcheck
  · exact Rule.check_faithful hdoc hcheck fix hfix
  · cases hcheck

namespace Document

variable {parser : Parser} {source : Text} {doc : Document}

/-- A text that is indexed was parsed. -/
theorem ofText_eq_ok (h : ofText parser source = .ok doc) :
    ∃ file, parser source = .ok file ∧ build source file true = .ok doc := by
  rw [ofText] at h
  split at h
  · cases h
  · rename_i file hfile
    split at h
    · cases h
    · rename_i hbuild
      cases h
      exact ⟨file, hfile, hbuild⟩

theorem ofText_source (h : ofText parser source = .ok doc) : doc.source = source := by
  obtain ⟨file, _, hbuild⟩ := ofText_eq_ok h
  obtain ⟨nodes, _, _, rfl⟩ := build_eq_ok hbuild
  rfl

theorem ofText_exact (hparser : ExactParser parser) (h : ofText parser source = .ok doc) :
    doc.Exact ∧ doc.source = source := by
  obtain ⟨file, hfile, hbuild⟩ := ofText_eq_ok h
  exact build_exact (hparser source file hfile) hbuild

theorem ofText_comments_exact (hparser : ExactParser parser)
    (hcomments : NonemptyComments parser) (h : ofText parser source = .ok doc) :
    doc.CommentsExact := by
  obtain ⟨file, hfile, hbuild⟩ := ofText_eq_ok h
  exact build_comments_exact (hparser source file hfile) (hcomments source file hfile) hbuild

end Document

namespace Session

variable {session : Session} {parser : Parser} {source : Text} {report : LintReport}

theorem lint_eq_ok (h : (session.lint parser source).1 = .ok report) :
    ∃ doc dispatches, Document.ofText parser source = .ok doc ∧
      (Dispatch.compileAll session.cache (session.rules.enabled.flatMap Rule.patterns)).1 =
        .ok dispatches ∧
      report = session.rules.report dispatches doc := by
  rw [lint] at h
  split at h
  · cases h
  · rename_i doc hdoc
    split at h
    · cases h
    · rename_i made cache hrun
      split at h
      · cases h
      · cases h
        rw [RuleSet.run] at hrun
        split at hrun
        · cases hrun
        · rename_i dispatches _ hcompiled
          cases hrun
          exact ⟨doc, dispatches, hdoc, by rw [hcompiled], rfl⟩

/-- Whatever is offered for a text is faithful to it. -/
theorem lint_faithful (hparser : ExactParser parser)
    (h : (session.lint parser source).1 = .ok report) :
    ∀ d ∈ report.diagnostics, ∀ fix ∈ d.fixes, fix.Faithful source := by
  obtain ⟨doc, dispatches, hdoc, _, rfl⟩ := lint_eq_ok h
  obtain ⟨hexact, rfl⟩ := Document.ofText_exact hparser hdoc
  exact RuleSet.report_faithful hexact session.rules dispatches

end Session

end ScriptLint
