import ScriptLint.Proofs.Edit.Splice
import ScriptLint.Proofs.Revision.Collapse
import ScriptLint.Proofs.Revision.Relocate
import ScriptLint.Proofs.Rule.Checks

/-!
Faithful fixes: the edits fit the source, do not overlap each other, and put in the code that they
take out. The two kinds of fixes there are, a collapse and a move, are faithful, so every fix that a
rule offers on an exact document is (`Rule.check_faithful`).
-/
namespace ScriptLint

structure Fix.Faithful (source : Text) (fix : Fix) : Prop where
  fits : ∀ e ∈ fix.edits, e.Fits source
  apart : fix.edits.Pairwise fun a b => a.overlaps b = false
  code_kept : Text.code (Edit.removed source fix.edits) = Text.code (Edit.inserted fix.edits)

/-- Only the edits of a fix matter. -/
theorem Fix.Faithful.of_edits_eq {source : Text} {fix other : Fix} (h : fix.Faithful source)
    (hedits : other.edits = fix.edits) : other.Faithful source := by
  constructor
  · rw [hedits]
    exact h.fits
  · rw [hedits]
    exact h.apart
  · rw [hedits]
    exact h.code_kept

namespace Document

variable {doc : Document}

theorem collapse?_faithful (hdoc : doc.Exact) {id : NodeId} {collapsed : Text}
    (h : doc.collapse? id = some collapsed) :
    (Fix.replace (doc.span id) collapsed).Faithful doc.source := by
  refine ⟨?_, List.pairwise_singleton _ _, ?_⟩
  · intro e he
    obtain rfl := List.mem_singleton.mp he
    exact fits_of_exact (hdoc.ordered id) (hdoc.exact id) collapsed
  · have hcode := code_collapse? hdoc h
    simpa [Fix.replace, Fix.ofEdits, text] using hcode.symm

theorem moveStatement_faithful (hdoc : doc.Exact) {id : NodeId} {target : Nat}
    {edits : List Edit} (h : doc.moveStatement id target = .ok edits) :
    (Fix.ofEdits edits).Faithful doc.source := by
  obtain ⟨hordered, hexact⟩ := movedSpan_spec hdoc id
  have hole := vacated_holds doc hexact
  obtain ⟨indent, hindent, hplace, rfl⟩ := moveStatement_eq_ok h
  have hle : (doc.vacated (doc.movedSpan id)).start ≤ (doc.vacated (doc.movedSpan id)).stop := by
    have := hole.start_le
    have := hole.le_stop
    omega
  have hline := Text.isBoundary_lineStart doc.source target
  refine ⟨?_, ?_, ?_⟩
  · intro e he
    simp only [Fix.ofEdits, List.mem_cons, List.not_mem_nil, or_false] at he
    rcases he with rfl | rfl
    · exact fits_of_exact hle hole.exact []
    · exact fits_of_exact (Nat.le_refl _) ⟨hline, hline⟩ _
  · refine List.pairwise_pair.mpr ?_
    exact (Span.not_overlaps_iff _ _).mpr hplace
  · have hfeed : Text.code ['\n'] = [] := by decide
    simp only [Fix.ofEdits, Edit.removed_cons, Edit.removed_nil, Edit.inserted_cons,
      Edit.inserted_nil, Edit.delete, Edit.insert, Text.slice_self, List.append_nil,
      List.nil_append, Text.code_append, hfeed, Text.code_of_allBlank hindent]
    exact hole.code_eq hordered hexact

end Document

namespace Rule

variable {doc : Document} {id : NodeId} {d : Diagnostic}

theorem singleLine_faithful (hdoc : doc.Exact) {rule : SingleLine} (h : rule.check doc id = some d) :
    ∀ fix ∈ d.fixes, fix.Faithful doc.source := by
  obtain ⟨_, collapsed, hcollapsed, _, hedits⟩ := SingleLine.check_eq_some h
  intro fix hfix
  exact (Document.collapse?_faithful hdoc hcollapsed).of_edits_eq (hedits fix hfix)

theorem typesBeforeUse_faithful (hdoc : doc.Exact) (h : TypesBeforeUse.check doc id = some d) :
    ∀ fix ∈ d.fixes, fix.Faithful doc.source := by
  obtain ⟨_, _, _, _, _, _, hedits⟩ := TypesBeforeUse.check_eq_some h
  intro fix hfix
  exact (Document.moveStatement_faithful hdoc (hedits fix hfix)).of_edits_eq rfl

/-- Every fix that a rule offers is faithful; three of the rules offer none. -/
theorem check_faithful (hdoc : doc.Exact) {rule : Rule} (h : rule.check doc id = some d) :
    ∀ fix ∈ d.fixes, fix.Faithful doc.source := by
  cases rule with
  | singleLine options => exact singleLine_faithful hdoc h
  | typesBeforeUse => exact typesBeforeUse_faithful hdoc h
  | maxParams options => simp [(MaxParams.check_eq_some h).2]
  | singleUseType options => simp [(SingleUseType.check_eq_some h).2]
  | reexport => simp [(Reexport.check_eq_some h).2]

end Rule

end ScriptLint
